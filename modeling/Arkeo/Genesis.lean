import Mathlib.Data.List.Sort
import Arkeo.Registry
import Arkeo.Versions

/-! # The genesis of the module

`InitGenesis` writes the records of a genesis through the setters of the keeper, which refuse
some of them and are only logged then; `ExportGenesis` reads the stores in the order of their
keys.  A genesis is valid when no provider, no contract and no validator is listed twice and
the versions are there (`validate_ok`).  The services it lists are not looked at.
-/
namespace Arkeo
open Exec

/-! ## The code -/

/-- The parameters, `uint64` both. -/
structure Params where
  blockPerYear : ℕ
  emissionCurve : ℕ
  deriving DecidableEq, Repr

def newParams : Params where
  blockPerYear := 6311520
  emissionCurve := 10

structure ValidatorVersion where
  validatorAddress : String
  version : Int64
  deriving DecidableEq, Repr

/-- A genesis; the defaults are those of `DefaultGenesis`. -/
structure GenesisState where
  params : Params := newParams
  providers : List Provider := []
  contracts : List Contract := []
  nextContractId : ℕ := 0
  contractExpirationSets : List ContractExpirationSet := []
  userContractSets : List UserContractSet := []
  version : Int64 := 1
  services : List Service := []
  validatorVersions : List ValidatorVersion := []
  deriving DecidableEq, Repr

/-- Why a genesis is not valid. -/
inductive GenesisError where
  | invalidBlocksPerYear
  | invalidEmissionCurve
  | duplicateProvider (key : String)
  | duplicateContract (id : ℕ)
  | duplicateValidator (address : String)
  | invalidValidatorAddress (address : String)
  | invalidValidatorVersion (address : String) (version : Int64)
  | invalidVersion (version : Int64)
  deriving DecidableEq, Repr

def Params.validate (p : Params) : Except GenesisError Unit :=
  if p.blockPerYear ≤ 0 then .error .invalidBlocksPerYear
  else if p.emissionCurve ≤ 0 then .error .invalidEmissionCurve
  else .ok ()

/-- A loop over records that have to differ in `f`. -/
def checkDistinct {α κ : Type} [DecidableEq κ] (f : α → κ) (e : κ → GenesisError) :
    List α → List κ → Except GenesisError Unit
  | [], _ => .ok ()
  | a :: l, seen => if f a ∈ seen then .error (e (f a)) else checkDistinct f e l (f a :: seen)

/-- `fmt.Sprintf("%s-%s", provider.PubKey, provider.Service)`. -/
def Provider.genesisKey (p : Provider) : String := p.pubKey ++ "-" ++ serviceString p.service

section
variable (codec : AddressCodec)

def validateVersions : List ValidatorVersion → List String → Except GenesisError Unit
  | [], _ => .ok ()
  | vv :: l, seen =>
      if vv.validatorAddress ∈ seen then .error (.duplicateValidator vv.validatorAddress)
      else if codec.valBytes vv.validatorAddress = none then
        .error (.invalidValidatorAddress vv.validatorAddress)
      else if vv.version ≤ 0 then
        .error (.invalidValidatorVersion vv.validatorAddress vv.version)
      else validateVersions l (vv.validatorAddress :: seen)

def GenesisState.validate (gs : GenesisState) : Except GenesisError Unit := do
  gs.params.validate
  checkDistinct Provider.genesisKey .duplicateProvider gs.providers []
  checkDistinct Contract.id .duplicateContract gs.contracts []
  validateVersions codec gs.validatorVersions []
  if gs.version < 0 then .error (.invalidVersion gs.version) else .ok ()

/-- `SetUserContractSet` on a set that may be nil, which it dereferences. -/
def importUserContractSet (set : UserContractSet) : Keeper Unit := do
  failIf (set.user ≠ "" && set.contractSet = none) .panic
  setUserContractSet set

/-- `InitGenesis` but for the versions.  `entries` is the static table of services in the
order in which its map is walked. -/
def initRecords (entries : List Service) (gs : GenesisState) : Keeper Unit := do
  seedServices (if gs.services = [] then entries else gs.services)
  forEach (fun provider => logged (setProvider provider)) gs.providers
  forEach (fun contract => logged (setContract contract)) gs.contracts
  writing fun s => { s with nextContractId := gs.nextContractId }
  forEach (fun set => logged (setContractExpirationSet set)) gs.contractExpirationSets
  forEach (fun set => logged (importUserContractSet set)) gs.userContractSets

def importVersion (s : VersionStore) (vv : ValidatorVersion) : VersionStore :=
  match codec.valBytes vv.validatorAddress with
  | none => s
  | some valAddr => s.setVersionForAddress codec valAddr vv.version

def initVersions (gs : GenesisState) (s : VersionStore) : VersionStore :=
  gs.validatorVersions.foldl (importVersion codec) (s.setVersion gs.version)

/-- `InitGenesis`; `none` where it panics. -/
def initGenesis (entries : List Service) (gs : GenesisState) (s : ChainState)
    (versions : VersionStore) : Option (ChainState × VersionStore) :=
  match initRecords entries gs s with
  | .ok _ s' => some (s', initVersions codec gs versions)
  | .error _ _ => none

/-- The values of a store by the texts of their keys, as its iterator walks them. -/
def inKeyOrder {κ ν : Type} (text : κ → String) (m : AList fun _ : κ => ν) : List ν :=
  (m.entries.insertionSort fun e e' => text e.1 ≤ text e'.1).map Sigma.snd

/-- The last part of a provider's key. -/
def providerText (key : String × ℕ) : String := key.1 ++ "/" ++ toUpper (serviceString key.2)

/-- `ExportGenesis`; `validators` are the active ones, and one whose operator does not
decode is passed over. -/
def exportGenesis (validators : List Validator) (s : ChainState) (versions : VersionStore) :
    GenesisState where
  params := newParams
  providers := inKeyOrder providerText s.providers
  contracts := inKeyOrder (fun id => toString id) s.contracts
  nextContractId := s.getNextContractId
  contractExpirationSets := inKeyOrder (fun height => toString height) s.expirationSets
  userContractSets := inKeyOrder id s.userSets
  version := versions.getVersion
  services := inKeyOrder id s.services
  validatorVersions := validators.filterMap fun val =>
    (codec.valBytes val.operator).map fun valAddr =>
      { validatorAddress := val.operator, version := versions.getVersionForAddress codec valAddr }

end

/-! ## What is valid -/

theorem checkDistinct_ok {α κ : Type} [DecidableEq κ] {f : α → κ} {e : κ → GenesisError}
    {l : List α} {seen : List κ} :
    checkDistinct f e l seen = .ok () ↔ (l.map f).Nodup ∧ ∀ a ∈ l, f a ∉ seen := by
  induction l generalizing seen with
  | nil => simp [checkDistinct]
  | cons a l ih =>
    unfold checkDistinct
    by_cases ha : f a ∈ seen
    · rw [if_pos ha]
      constructor
      · intro h
        cases h
      · rintro ⟨-, hnew⟩
        exact absurd ha (hnew a List.mem_cons_self)
    · rw [if_neg ha, ih, List.map_cons, List.nodup_cons, List.forall_mem_cons]
      simp only [List.mem_cons, not_or, List.mem_map, not_exists, not_and]
      constructor
      · rintro ⟨hnodup, hnew⟩
        exact ⟨⟨fun b hb => (hnew b hb).1, hnodup⟩, ha, fun b hb => (hnew b hb).2⟩
      · rintro ⟨⟨hne, hnodup⟩, -, hnew⟩
        exact ⟨hnodup, fun b hb => ⟨hne b hb, hnew b hb⟩⟩

variable {codec : AddressCodec} {gs : GenesisState} {s s' : ChainState}
  {versions versions' : VersionStore} {swVersion : Int64}

/-- A version of a validator that has an address. -/
def ValidatorVersion.Given (codec : AddressCodec) (vv : ValidatorVersion) : Prop :=
  (codec.valBytes vv.validatorAddress).isSome ∧ 0 < vv.version

theorem validateVersions_ok {l : List ValidatorVersion} {seen : List String} :
    validateVersions codec l seen = .ok () ↔
      ((l.map ValidatorVersion.validatorAddress).Nodup ∧ ∀ vv ∈ l, vv.validatorAddress ∉ seen) ∧
        ∀ vv ∈ l, vv.Given codec := by
  induction l generalizing seen with
  | nil => simp [validateVersions]
  | cons vv l ih =>
    have hhead : ∀ e : GenesisError, vv.validatorAddress ∈ seen ∨ ¬vv.Given codec →
        ((.error e : Except GenesisError Unit) = .ok () ↔
          (((vv :: l).map ValidatorVersion.validatorAddress).Nodup ∧
            ∀ x ∈ vv :: l, x.validatorAddress ∉ seen) ∧ ∀ x ∈ vv :: l, x.Given codec) := by
      intro e hbad
      constructor
      · intro h
        cases h
      · rintro ⟨⟨-, hnew⟩, hgiven⟩
        rcases hbad with hseen | hnot
        · exact absurd hseen (hnew vv List.mem_cons_self)
        · exact absurd (hgiven vv List.mem_cons_self) hnot
    unfold validateVersions
    by_cases hseen : vv.validatorAddress ∈ seen
    · rw [if_pos hseen]
      exact hhead _ (.inl hseen)
    rw [if_neg hseen]
    by_cases haddr : codec.valBytes vv.validatorAddress = none
    · rw [if_pos haddr]
      refine hhead _ (.inr fun hg => ?_)
      rw [ValidatorVersion.Given, haddr] at hg
      cases hg.1
    rw [if_neg haddr]
    by_cases hver : vv.version ≤ 0
    · rw [if_pos hver]
      exact hhead _ (.inr fun hg => absurd hg.2 (Int64.not_lt.mpr hver))
    rw [if_neg hver, ih, List.map_cons, List.nodup_cons, List.forall_mem_cons, List.forall_mem_cons]
    have hgiven : vv.Given codec := ⟨Option.isSome_iff_ne_none.mpr haddr, Int64.not_le.mp hver⟩
    simp only [List.mem_cons, not_or, List.mem_map, not_exists, not_and]
    constructor
    · rintro ⟨⟨hnodup, hnew⟩, hrest⟩
      exact ⟨⟨⟨fun x hx => (hnew x hx).1, hnodup⟩, hseen, fun x hx => (hnew x hx).2⟩, hgiven, hrest⟩
    · rintro ⟨⟨⟨hne, hnodup⟩, -, hnew⟩, -, hrest⟩
      exact ⟨⟨hnodup, fun x hx => ⟨hne x hx, hnew x hx⟩⟩, hrest⟩

/-- **What is valid.** -/
structure GenesisState.Valid (codec : AddressCodec) (gs : GenesisState) : Prop where
  params : 0 < gs.params.blockPerYear ∧ 0 < gs.params.emissionCurve
  providers : (gs.providers.map Provider.genesisKey).Nodup
  contracts : (gs.contracts.map Contract.id).Nodup
  validators : (gs.validatorVersions.map ValidatorVersion.validatorAddress).Nodup
  given : ∀ vv ∈ gs.validatorVersions, vv.Given codec
  version : 0 ≤ gs.version

theorem Params.validate_ok {p : Params} :
    p.validate = .ok () ↔ 0 < p.blockPerYear ∧ 0 < p.emissionCurve := by
  unfold Params.validate
  by_cases hb : p.blockPerYear ≤ 0
  · rw [if_pos hb]
    exact iff_of_false (fun h => by cases h) fun h => by omega
  · rw [if_neg hb]
    by_cases he : p.emissionCurve ≤ 0
    · rw [if_pos he]
      exact iff_of_false (fun h => by cases h) fun h => by omega
    · rw [if_neg he]
      exact iff_of_true rfl ⟨by omega, by omega⟩

theorem except_bind_ok {ε β : Type} {x : Except ε Unit} {f : Unit → Except ε β} {b : β} :
    x >>= f = .ok b ↔ x = .ok () ∧ f () = .ok b := by
  cases x with
  | error e =>
    constructor
    · intro h
      cases h
    · rintro ⟨h, -⟩
      cases h
  | ok u => exact (and_iff_right rfl).symm

theorem GenesisState.validate_ok : gs.validate codec = .ok () ↔ gs.Valid codec := by
  unfold validate
  simp only [except_bind_ok, Params.validate_ok, checkDistinct_ok, validateVersions_ok,
    List.not_mem_nil, not_false_eq_true, implies_true, and_true]
  have hversion : (if gs.version < 0 then (.error (.invalidVersion gs.version) :
      Except GenesisError Unit) else .ok ()) = .ok () ↔ 0 ≤ gs.version := by
    by_cases hneg : gs.version < 0
    · rw [if_pos hneg]
      exact iff_of_false (fun h => by cases h) (Int64.not_le.mpr hneg)
    · rw [if_neg hneg]
      exact iff_of_true rfl (Int64.not_lt.mp hneg)
  constructor
  · rintro ⟨hparams, hproviders, hcontracts, ⟨hvalidators, hgiven⟩, hver⟩
    exact ⟨hparams, hproviders, hcontracts, hvalidators, hgiven, hversion.mp hver⟩
  · rintro ⟨hparams, hproviders, hcontracts, hvalidators, hgiven, hver⟩
    exact ⟨hparams, hproviders, hcontracts, ⟨hvalidators, hgiven⟩, hversion.mpr hver⟩

/-! ## Records that are taken -/

/-- A loop of a setter that takes everything it is given. -/
theorem forEach_load {α κ : Type} [DecidableEq κ] {set : α → Keeper Unit} (key : α → κ)
    (put : (AList fun _ : κ => α) → ChainState) {l : List α}
    (hset : ∀ a ∈ l, ∀ m, set a (put m) = .ok () (put (m.insert (key a) a)))
    (m : AList fun _ : κ => α) :
    forEach (fun a => logged (set a)) l (put m) = .ok () (put (AList.load key id l m)) := by
  induction l generalizing m with
  | nil => rfl
  | cons a l ih =>
    obtain ⟨ha, hl⟩ := List.forall_mem_cons.mp hset
    change EStateM.bind (logged (set a)) (fun _ => forEach _ l) (put m) = _
    unfold EStateM.bind logged
    rw [ha]
    exact ih hl _

theorem setProvider_taken {p : Provider} (hp : p.pubKey ≠ "") (hb : p.bond ≠ 0) (s : ChainState) :
    setProvider p s =
      .ok () { s with providers := s.providers.insert (toUpper p.pubKey, p.service) p } := by
  refine failIf_bind_ok.mpr ⟨decide_eq_false hp, ?_⟩
  rw [writing, if_neg hb]

theorem setContract_taken {c : Contract} (hp : c.provider ≠ "") (hc : c.client ≠ "")
    (s : ChainState) :
    setContract c s = .ok () { s with contracts := s.contracts.insert c.id c } := by
  refine failIf_bind_ok.mpr ⟨?_, rfl⟩
  rw [decide_eq_false hp, decide_eq_false hc]
  rfl

theorem setContractExpirationSet_taken {r : ContractExpirationSet} (hpos : 0 < r.height)
    (hids : r.contractIds ≠ []) (s : ChainState) :
    setContractExpirationSet r s =
      .ok () { s with expirationSets := s.expirationSets.insert r.height r } := by
  refine failIf_bind_ok.mpr ⟨decide_eq_false (Int64.not_le.mpr hpos), ?_⟩
  rw [writing, if_neg hids]

theorem importUserContractSet_taken {set : UserContractSet} (hu : set.user ≠ "")
    (hids : set.contractSet.getD [] ≠ []) (s : ChainState) :
    importUserContractSet set s =
      .ok () { s with userSets := s.userSets.insert (toUpper set.user) set } := by
  have hsome : set.contractSet ≠ none := by
    intro hnone
    rw [hnone] at hids
    exact hids rfl
  refine failIf_bind_ok.mpr ⟨?_, failIf_bind_ok.mpr ⟨decide_eq_false hu, ?_⟩⟩
  · rw [decide_eq_false hsome, Bool.and_false]
  · rw [writing, if_neg hids]

/-! ## Records that are stored -/

/-- `Provider.Key`, the text of which the store writes in capitals. -/
def Provider.key (p : Provider) : String × ℕ := (toUpper p.pubKey, p.service)

/-- The last part of the key of a user's set. -/
def UserContractSet.key (set : UserContractSet) : String := toUpper set.user

/-- Every record is one that its setter takes, under the key that it makes. -/
structure ChainState.Stored (s : ChainState) : Prop where
  contract : s.contracts.All fun id c => c.id = id ∧ c.provider ≠ "" ∧ c.client ≠ ""
  list : s.expirationSets.All fun height r =>
    r.height = height ∧ 0 < r.height ∧ r.contractIds ≠ []
  user : s.userSets.All fun key set =>
    set.key = key ∧ set.user ≠ "" ∧ set.contractSet.getD [] ≠ []
  provider : s.providers.All fun key p =>
    p.key = key ∧ p.pubKey ≠ "" ∧ p.bond ≠ 0
  service : s.services.All fun _ svc => svc.accepted = true
  registered : s.Registered

theorem stored_writes : Writes ChainState.Stored where
  contract _ _ hp hc h := { h with contract := h.contract.insert ⟨rfl, hp, hc⟩ }
  list _ _ hpos hids h := { h with list := h.list.insert ⟨rfl, hpos, hids⟩ }
  unlist _ t h := { h with list := h.list.erase t }
  user _ _ hu hids h := { h with user := h.user.insert ⟨rfl, hu, hids⟩ }
  unuser _ key h := { h with user := h.user.erase key }
  provider _ _ hp hb h := { h with provider := h.provider.insert ⟨rfl, hp, hb⟩ }
  unprovider _ key h := { h with provider := h.provider.erase key }
  next _ _ h := { h with }
  bank _ _ _ h := { h with }
  event _ _ h := { h with }

/-- Writing services to an empty registry. -/
theorem ChainState.Stored.putServices (h : s.Stored) {l : List Service} (hempty : s.services = ∅)
    (hl : ∀ svc ∈ l, svc.accepted = true)
    (hc : SecondaryIndex.Coherent Service.key Service.id l) : (s.putServices l).Stored := by
  have hids : s.serviceIds = ∅ := by
    refine AList.eq_empty_of_all fun id name hid => ?_
    obtain ⟨r, hr, -⟩ := h.registered.inverse.points id name hid
    rw [hempty] at hr
    cases hr
  have hlisted := listed_putServices hc hl hempty hids
  exact { h with service := hlisted.accepted, registered := hlisted.registered }

theorem ChainState.Stored.empty (bank : Ledger Account String) : { bank := bank : ChainState }.Stored where
  contract := .empty _
  list := .empty _
  user := .empty _
  provider := .empty _
  service := .empty _
  registered := ⟨AList.All.empty _, nofun, nofun⟩

/-- **One step.**  Messages and blocks store nothing else. -/
theorem ChainState.Stored.step {cr : Crypto} {w w' : World} {act : Action} (h : w.chain.Stored)
    (hstep : Arkeo.step cr w act = some w') : w'.chain.Stored := by
  refine step_preserves stored_writes h ?_ hstep
  intro msg t _ hmsg hdel
  obtain ⟨-, hh⟩ := deliver_some hdel
  have hlisted := ChainState.Listed.handle ⟨h.registered, h.service⟩ hmsg hh
  cases msg with
  | registerService msg =>
    obtain ⟨-, -, rfl⟩ := registerService_ok hh
    exact { h with service := hlisted.accepted, registered := hlisted.registered }
  | updateService msg =>
    obtain ⟨-, -, -, rfl⟩ := updateService_ok hh
    exact { h with service := hlisted.accepted, registered := hlisted.registered }
  | removeService msg =>
    obtain ⟨svc, -, rfl⟩ := removeService_ok hh
    exact { h with service := hlisted.accepted, registered := hlisted.registered }
  | bondProvider msg | modProvider msg | openContract msg | closeContract msg
  | claimContractIncome msg => cases hmsg

end Arkeo
