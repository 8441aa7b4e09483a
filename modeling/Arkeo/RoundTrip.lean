import Arkeo.Genesis

/-! # Out of the store and in again

A store that holds only records its setters take, each under the key it makes, is rebuilt
from its values.  Every store that is reached from a valid genesis is such a store, and its
registry is inverse as long as the genesis lists its services coherently: then what is
exported is valid, and importing it restores the state (`genesis_roundTrips`).
-/
namespace Arkeo
open Exec

variable {cr : Crypto} {codec : AddressCodec} {descriptions : String → String} {swVersion : Int64}
  {gs : GenesisState} {s s' : ChainState} {versions versions' : VersionStore}
  {validators : List Validator} {entries : List Service}

theorem inKeyOrder_perm {κ ν : Type} (text : κ → String) (m : AList fun _ : κ => ν) :
    (inKeyOrder text m).Perm (m.entries.map Sigma.snd) :=
  (List.perm_insertionSort _ _).map _

/-- What is read in order is stored. -/
theorem of_mem_inKeyOrder {κ ν : Type} [DecidableEq κ] {text : κ → String} {Q : κ → ν → Prop}
    {m : AList fun _ : κ => ν} (h : m.All Q) {v : ν} (hv : v ∈ inKeyOrder text m) :
    ∃ k, m.lookup k = some v ∧ Q k v := by
  obtain ⟨⟨k, v⟩, he, rfl⟩ := List.mem_map.mp ((inKeyOrder_perm text m).mem_iff.mp hv)
  exact ⟨k, AList.mem_entries.mp he, h k v (AList.mem_entries.mp he)⟩

/-- A value that tells its key is read once. -/
theorem inKeyOrder_nodup {κ ν τ : Type} [DecidableEq κ] {text : κ → String} (f : ν → κ) {g : ν → τ}
    {m : AList fun _ : κ => ν} (hkey : m.All fun k v => f v = k)
    (hinj : ∀ v v', g v = g v' → f v = f v') : ((inKeyOrder text m).map g).Nodup := by
  refine ((inKeyOrder_perm text m).map g).nodup_iff.mpr ?_
  rw [List.map_map]
  refine List.Nodup.map_on ?_ (List.Nodup.of_map Sigma.fst m.nodupKeys)
  rintro ⟨k, v⟩ he ⟨k', v'⟩ he' hg
  have hv := AList.mem_entries.mp he
  have hv' := AList.mem_entries.mp he'
  obtain rfl : k = k' := by
    rw [← hkey k v hv, ← hkey k' v' hv']
    exact hinj v v' hg
  obtain rfl := Option.some.inj (hv.symm.trans hv')
  rfl

/-! ## The versions -/

/-- Every version is one that was computed or announced: that of the store is not negative,
and that of an address is positive. -/
def VersionStore.Announced (versions : VersionStore) : Prop :=
  versions.All fun key v => 0 ≤ v ∧ (key ≠ "" → 0 < v)

theorem Int64.nonneg_of_pos {v : Int64} (h : 0 < v) : 0 ≤ v := by
  rw [Int64.le_iff_lt_or_eq]
  exact .inl h

theorem VersionStore.Announced.setVersion (h : versions.Announced) {v : Int64} (hv : 0 ≤ v) :
    (versions.setVersion v).Announced :=
  AList.All.insert h ⟨hv, fun hne => absurd rfl hne⟩

theorem VersionStore.Announced.setVersionForAddress (h : versions.Announced) {v : Int64} (hv : 0 < v)
    (addr : Bytes) : (versions.setVersionForAddress codec addr v).Announced :=
  AList.All.insert h ⟨Int64.nonneg_of_pos hv, fun _ => hv⟩

theorem VersionStore.Announced.getD (h : versions.Announced) (key : String) :
    0 ≤ (versions.lookup key).getD 1 ∧ (key ≠ "" → 0 < (versions.lookup key).getD 1) := by
  cases hv : versions.lookup key with
  | none => exact ⟨by decide, fun _ => by decide⟩
  | some v => exact h key v hv

theorem countVersions_nonneg (h : versions.Announced) {min current : Int64} (hcurrent : 0 ≤ current)
    (seen : Int64 → Int64) : 0 ≤ countVersions codec min current versions validators seen := by
  induction validators generalizing seen with
  | nil => exact hcurrent
  | cons val validators ih =>
    unfold countVersions
    split
    · exact ih seen
    · dsimp only
      split
      · exact (h.getD _).1
      · exact ih _

theorem VersionStore.Announced.step (h : versions.Announced) (hsw : 0 ≤ swVersion)
    {act : VersionAction} (hstep : versionStep codec swVersion versions act = some versions') :
    versions'.Announced := by
  cases act with
  | setVersion msg =>
    rw [versionStep] at hstep
    cases hm : msgSetVersion codec msg versions with
    | error e =>
      rw [hm] at hstep
      obtain rfl := Option.some.inj hstep
      exact h
    | ok t =>
      rw [hm] at hstep
      obtain rfl := Option.some.inj hstep
      obtain ⟨hpos, -, rfl⟩ := msgSetVersion_ok.mp hm
      exact h.setVersionForAddress hpos _
  | beginBlock validators =>
    simp only [versionStep] at hstep
    split at hstep
    · cases hstep
    · obtain rfl := Option.some.inj hstep
      refine h.setVersion ?_
      unfold getComputedVersion
      split
      · exact hsw
      · exact countVersions_nonneg h (h.getD "").1 _

theorem initVersions_announced (hgiven : ∀ vv ∈ gs.validatorVersions, vv.Given codec)
    (hversion : 0 ≤ gs.version) : (initVersions codec gs ∅).Announced := by
  have hloop : ∀ (l : List ValidatorVersion) (t : VersionStore), (∀ vv ∈ l, vv.Given codec) →
      t.Announced → (l.foldl (importVersion codec) t).Announced := by
    intro l
    induction l with
    | nil => exact fun t _ ht => ht
    | cons vv l ih =>
      intro t hl ht
      obtain ⟨hvv, hl⟩ := List.forall_mem_cons.mp hl
      refine ih _ hl ?_
      unfold importVersion
      split
      · exact ht
      · exact ht.setVersionForAddress hvv.2 _
  exact hloop _ _ hgiven (VersionStore.Announced.setVersion (AList.All.empty _) hversion)

/-! ## What is exported -/

/-- What bech32 promises of the addresses it reads: none is empty. -/
def AddressCodec.ReadsNonempty (codec : AddressCodec) : Prop := ∀ text, codec.valBytes text ≠ some []

theorem Provider.genesisKey_inj {p q : Provider} (h : p.genesisKey = q.genesisKey) :
    p.key = q.key := by
  obtain ⟨hpub, hservice⟩ := dash_serviceString_inj h
  rw [Provider.key, hpub, hservice, Provider.key]

/-- Active validators are listed once, and so are their versions. -/
theorem exportGenesis_validators (hnodup : (validators.map Validator.operator).Nodup) :
    ((exportGenesis codec validators s versions).validatorVersions.map
      ValidatorVersion.validatorAddress).Nodup := by
  refine List.Nodup.sublist ?_ hnodup
  unfold exportGenesis
  dsimp only
  clear hnodup
  induction validators with
  | nil => exact List.Sublist.refl _
  | cons val validators ih =>
    cases hval : codec.valBytes val.operator with
    | none =>
      rw [List.filterMap_cons_none (by rw [hval]; rfl)]
      exact ih.cons _
    | some valAddr =>
      rw [List.filterMap_cons_some (by rw [hval]; rfl)]
      exact ih.cons_cons _

/-- Their versions have been announced. -/
theorem exportGenesis_given (hv : versions.Announced) (hlaw : codec.Lawful)
    (hread : codec.ReadsNonempty) :
    ∀ vv ∈ (exportGenesis codec validators s versions).validatorVersions, vv.Given codec := by
  intro vv hvv
  obtain ⟨val, -, hval⟩ := List.mem_filterMap.mp hvv
  obtain ⟨valAddr, haddr, rfl⟩ := Option.map_eq_some_iff.mp hval
  refine ⟨by rw [haddr]; rfl, (hv.getD _).2 ?_⟩
  intro hempty
  -- only the empty address has the empty text
  have hnil : valAddr = [] := by
    refine hlaw.injective valAddr [] ?_
    rw [hempty, hlaw.empty]
    rfl
  rw [hnil] at haddr
  exact hread _ haddr

theorem newParams_pos : 0 < newParams.blockPerYear ∧ 0 < newParams.emissionCurve :=
  ⟨by decide, by decide⟩

/-- **What is exported is valid.** -/
theorem exportGenesis_valid (hs : s.Stored) (hv : versions.Announced) (hlaw : codec.Lawful)
    (hread : codec.ReadsNonempty) (hnodup : (validators.map Validator.operator).Nodup) :
    (exportGenesis codec validators s versions).Valid codec where
  params := newParams_pos
  providers := inKeyOrder_nodup Provider.key (fun k p hp => (hs.provider k p hp).1)
    fun _ _ h => Provider.genesisKey_inj h
  contracts := inKeyOrder_nodup Contract.id (fun id c hc => (hs.contract id c hc).1) fun _ _ h => h
  validators := exportGenesis_validators hnodup
  given := exportGenesis_given hv hlaw hread
  version := (hv.getD "").1

/-! ## What is imported -/

/-- What a genesis leaves on an empty store when everything is taken. -/
def GenesisState.imported (gs : GenesisState) (bank : Ledger Account String) : ChainState where
  contracts := AList.load Contract.id id gs.contracts ∅
  expirationSets := AList.load ContractExpirationSet.height id gs.contractExpirationSets ∅
  userSets := AList.load UserContractSet.key id gs.userContractSets ∅
  nextContractId := gs.nextContractId
  providers := AList.load Provider.key id gs.providers ∅
  services := AList.load Service.key id gs.services ∅
  serviceIds := AList.load Service.id Service.key gs.services ∅
  bank := bank

theorem initRecords_taken (hne : gs.services ≠ [])
    (hservices : ∀ svc ∈ gs.services, svc.accepted = true)
    (hproviders : ∀ p ∈ gs.providers, p.pubKey ≠ "" ∧ p.bond ≠ 0)
    (hcontracts : ∀ c ∈ gs.contracts, c.provider ≠ "" ∧ c.client ≠ "")
    (hlists : ∀ r ∈ gs.contractExpirationSets, 0 < r.height ∧ r.contractIds ≠ [])
    (husers : ∀ set ∈ gs.userContractSets, set.user ≠ "" ∧ set.contractSet.getD [] ≠ [])
    (entries : List Service) (bank : Ledger Account String) :
    initRecords entries gs { bank := bank } = .ok () (gs.imported bank) := by
  unfold initRecords
  rw [if_neg hne]
  refine bind_ok.mpr ⟨(), _, seedServices_eq _, ?_⟩
  rw [List.filter_eq_self.mpr hservices]
  -- each loop fills the one store that was empty before it
  let s₁ := ({ bank := bank } : ChainState).putServices gs.services
  let s₂ := { s₁ with providers := AList.load Provider.key id gs.providers ∅ }
  let s₃ := { s₂ with contracts := AList.load Contract.id id gs.contracts ∅ }
  let s₄ := { s₃ with nextContractId := gs.nextContractId }
  let s₅ := { s₄ with
    expirationSets := AList.load ContractExpirationSet.height id gs.contractExpirationSets ∅ }
  refine bind_ok.mpr ⟨(), s₂, ?_, bind_ok.mpr ⟨(), s₃, ?_, bind_ok.mpr ⟨(), s₄, rfl,
    bind_ok.mpr ⟨(), s₅, ?_, ?_⟩⟩⟩⟩
  · refine forEach_load Provider.key (fun m => { s₁ with providers := m }) ?_ ∅
    exact fun p hp m => setProvider_taken (hproviders p hp).1 (hproviders p hp).2 _
  · refine forEach_load Contract.id (fun m => { s₂ with contracts := m }) ?_ ∅
    exact fun c hc m => setContract_taken (hcontracts c hc).1 (hcontracts c hc).2 _
  · refine forEach_load ContractExpirationSet.height (fun m => { s₄ with expirationSets := m }) ?_ ∅
    exact fun r hr m => setContractExpirationSet_taken (hlists r hr).1 (hlists r hr).2 _
  · refine forEach_load UserContractSet.key (fun m => { s₅ with userSets := m }) ?_ ∅
    exact fun set hset m => importUserContractSet_taken (husers set hset).1 (husers set hset).2 _

/-- **Importing what was exported.** -/
theorem initGenesis_exportGenesis (hs : s.Stored) (hne : s.services ≠ ∅) (entries : List Service)
    (bank : Ledger Account String) :
    initGenesis codec entries (exportGenesis codec validators s versions) { bank := bank } ∅ =
      some ((exportGenesis codec validators s versions).imported bank,
        initVersions codec (exportGenesis codec validators s versions) ∅) := by
  have hinit : initRecords entries (exportGenesis codec validators s versions) { bank := bank } =
      .ok () ((exportGenesis codec validators s versions).imported bank) := by
    refine initRecords_taken ?_ ?_ ?_ ?_ ?_ ?_ entries bank
    · intro hnil
      have hlength := (inKeyOrder_perm id s.services).length_eq
      rw [show inKeyOrder id s.services = [] from hnil, List.length_nil, List.length_map] at hlength
      exact hne (AList.ext (List.length_eq_zero_iff.mp hlength.symm))
    · intro svc hsvc
      obtain ⟨_, -, haccepted⟩ := of_mem_inKeyOrder hs.service hsvc
      exact haccepted
    · intro p hp
      obtain ⟨_, -, -, hp⟩ := of_mem_inKeyOrder hs.provider hp
      exact hp
    · intro c hc
      obtain ⟨_, -, -, hc⟩ := of_mem_inKeyOrder hs.contract hc
      exact hc
    · intro r hr
      obtain ⟨_, -, -, hr⟩ := of_mem_inKeyOrder hs.list hr
      exact hr
    · intro set hset
      obtain ⟨_, -, -, hset⟩ := of_mem_inKeyOrder hs.user hset
      exact hset
  unfold initGenesis
  rw [hinit]

/-- What a module reads is the same in both stores. -/
structure Restored (codec : AddressCodec) (validators : List Validator) (s : ChainState)
    (versions : VersionStore) (s' : ChainState) (versions' : VersionStore) : Prop where
  providers : ∀ key, s'.providers.lookup key = s.providers.lookup key
  contracts : ∀ id, s'.contracts.lookup id = s.contracts.lookup id
  nextContractId : s'.getNextContractId = s.getNextContractId
  version : versions'.getVersion = versions.getVersion
  expirationSets : ∀ height, s'.expirationSets.lookup height = s.expirationSets.lookup height
  userSets : ∀ key, s'.userSets.lookup key = s.userSets.lookup key
  services : ∀ name, s'.services.lookup name = s.services.lookup name
  byID : ∀ id r, getServiceByID id s' = .ok r s' ↔ getServiceByID id s = .ok r s
  validatorVersions : ∀ val ∈ validators, ∀ valAddr, codec.valBytes val.operator = some valAddr →
    versions'.getVersionForAddress codec valAddr = versions.getVersionForAddress codec valAddr

/-! ## The versions in and out -/

/-- A version that is imported is the one that was read. -/
def ReadFrom (versions t : VersionStore) : Prop :=
  t.All fun key v => v = (versions.lookup key).getD 1

theorem importVersion_readFrom {t : VersionStore} (h : ReadFrom versions t) {val : Validator}
    {valAddr : Bytes} (hval : codec.valBytes val.operator = some valAddr) :
    importVersion codec t
        { validatorAddress := val.operator
          version := versions.getVersionForAddress codec valAddr } =
      t.setVersionForAddress codec valAddr (versions.getVersionForAddress codec valAddr) ∧
    ReadFrom versions
      (t.setVersionForAddress codec valAddr (versions.getVersionForAddress codec valAddr)) := by
  refine ⟨?_, AList.All.insert h rfl⟩
  unfold importVersion
  dsimp only
  rw [hval]

/-- **Every version that is exported is found again.** -/
theorem importVersions_found (validators : List Validator) {t : VersionStore}
    (h : ReadFrom versions t) :
    ReadFrom versions ((exportGenesis codec validators s versions).validatorVersions.foldl
      (importVersion codec) t) ∧
    ∀ key, ((t.lookup key).isSome ∨ ∃ val ∈ validators, ∃ valAddr,
        codec.valBytes val.operator = some valAddr ∧ toUpper (codec.valString valAddr) = key) →
      (((exportGenesis codec validators s versions).validatorVersions.foldl
        (importVersion codec) t).lookup key).isSome := by
  unfold exportGenesis
  dsimp only
  induction validators generalizing t with
  | nil =>
    refine ⟨h, fun key hkey => ?_⟩
    rcases hkey with hkey | ⟨val, hval, -⟩
    · exact hkey
    · cases hval
  | cons val validators ih =>
    cases hval : codec.valBytes val.operator with
    | none =>
      rw [List.filterMap_cons_none (by rw [hval]; rfl)]
      refine ⟨(ih h).1, fun key hkey => (ih h).2 key ?_⟩
      rcases hkey with hkey | ⟨val', hmem, valAddr, haddr, hkey⟩
      · exact .inl hkey
      · rcases List.mem_cons.mp hmem with rfl | hmem
        · rw [hval] at haddr
          cases haddr
        · exact .inr ⟨val', hmem, valAddr, haddr, hkey⟩
    | some valAddr =>
      rw [List.filterMap_cons_some (by rw [hval]; rfl), List.foldl_cons]
      obtain ⟨himport, hread⟩ := importVersion_readFrom h hval
      rw [himport]
      refine ⟨(ih hread).1, fun key hkey => (ih hread).2 key ?_⟩
      by_cases hk : key = toUpper (codec.valString valAddr)
      · subst hk
        left
        rw [VersionStore.setVersionForAddress, AList.lookup_insert]
        rfl
      rcases hkey with hkey | ⟨val', hmem, valAddr', haddr, hkey⟩
      · left
        rw [VersionStore.setVersionForAddress, AList.lookup_insert_ne hk]
        exact hkey
      · rcases List.mem_cons.mp hmem with rfl | hmem
        · rw [hval] at haddr
          obtain rfl := Option.some.inj haddr
          exact absurd hkey.symm hk
        · exact .inr ⟨val', hmem, valAddr', haddr, hkey⟩

theorem ReadFrom.getD {t : VersionStore} (h : ReadFrom versions t) {key : String}
    (hsome : (t.lookup key).isSome) : (t.lookup key).getD 1 = (versions.lookup key).getD 1 := by
  obtain ⟨v, hv⟩ := Option.isSome_iff_exists.mp hsome
  rw [hv, Option.getD_some]
  exact h key v hv

/-! ## Restoring -/

theorem getNextContractId_ne_zero (s : ChainState) : s.getNextContractId ≠ 0 := by
  unfold ChainState.getNextContractId
  split
  · exact Nat.one_ne_zero
  · assumption

/-- The index is written anew, and inverse again. -/
theorem ChainState.Stored.inverse_imported (hs : s.Stored) (bank : Ledger Account String) :
    SecondaryIndex.Inverse Service.id
      ((exportGenesis codec validators s versions).imported bank).services
      ((exportGenesis codec validators s versions).imported bank).serviceIds := by
  have hperm := inKeyOrder_perm id s.services
  have hkeys : ((inKeyOrder id s.services).map Service.key).Nodup :=
    inKeyOrder_nodup Service.key hs.registered.keyed fun _ _ h => h
  have hids := hs.registered.inverse.nodup_ids hperm
  exact SecondaryIndex.inverse_load (SecondaryIndex.coherent_of_nodup hkeys hids)

/-- **A store of such records is restored from what is exported.** -/
theorem exportGenesis_restored (hs : s.Stored) (bank : Ledger Account String) :
    Restored codec validators s versions
      ((exportGenesis codec validators s versions).imported bank)
      (initVersions codec (exportGenesis codec validators s versions) ∅) := by
  have hread : ReadFrom versions (VersionStore.setVersion versions.getVersion ∅) :=
    AList.All.insert (AList.All.empty _) rfl
  obtain ⟨hread', hfound⟩ :=
    @importVersions_found codec s versions validators _ hread
  have hservices : ∀ name, ((exportGenesis codec validators s versions).imported bank).services.lookup
      name = s.services.lookup name :=
    AList.lookup_load_values hs.registered.keyed (inKeyOrder_perm _ _)
  have hindex := hs.registered.inverse.lookup_index (hs.inverse_imported bank) hservices
  refine
    { providers := AList.lookup_load_values (fun k p hp => (hs.provider k p hp).1)
        (inKeyOrder_perm _ _)
      contracts := AList.lookup_load_values (fun id c hc => (hs.contract id c hc).1)
        (inKeyOrder_perm _ _)
      nextContractId := ?_
      version := ?_
      expirationSets := AList.lookup_load_values (fun t r hr => (hs.list t r hr).1)
        (inKeyOrder_perm _ _)
      userSets := AList.lookup_load_values (fun k set hset => (hs.user k set hset).1)
        (inKeyOrder_perm _ _)
      services := hservices
      byID := ?_
      validatorVersions := ?_ }
  · exact if_neg (getNextContractId_ne_zero s)
  · exact hread'.getD (hfound "" (.inl rfl))
  · intro id r
    rw [getServiceByID_ok, getServiceByID_ok, hindex id]
    simp only [hservices, and_true]
  · intro val hval valAddr haddr
    exact hread'.getD (hfound _ (.inr ⟨val, hval, valAddr, haddr, rfl⟩))

/-! ## Runs of the module -/

/-- `EnsureServiceRegistrySeeded`, which leaves the mark in any case. -/
def ensureServiceRegistrySeeded (entries : List Service) (seeded : Bool) : Keeper Unit := do
  if seeded then pure ()
  else
    let services ← reading ChainState.services
    if services.entries ≠ [] then pure () else seedServices entries

/-- The chain, the versions, and the mark of a registry that has been seeded. -/
structure App where
  world : World
  versions : VersionStore
  seeded : Bool := false

inductive AppAction where
  | chain (act : Action)
  | setVersion (msg : MsgSetVersion)
  /-- The start of a block: the validators that are listed, the static table as its map is
  walked, and what minting and the payouts leave the bank with. -/
  | beginBlock (validators : List Validator) (entries : List Service)
      (bank : Ledger Account String) (journal : List Posting)

def appStep (cr : Crypto) (codec : AddressCodec) (descriptions : String → String)
    (swVersion : Int64) (app : App) : AppAction → Option App
  | .chain act => (step cr app.world act).map fun w => { app with world := w }
  | .setVersion msg =>
      (versionStep codec swVersion app.versions (.setVersion msg)).map fun versions =>
        { app with versions := versions }
  | .beginBlock validators entries bank journal =>
      if entries.isPerm (staticServices descriptions) then
        match versionStep codec swVersion app.versions (.beginBlock validators),
          ensureServiceRegistrySeeded entries app.seeded
            { app.world.chain with bank := bank, journal := journal } with
        | some versions, .ok _ s =>
            some { world := { app.world with chain := s }, versions := versions, seeded := true }
        | _, _ => none
      else none

/-- The static table is one of services that can be seeded. -/
theorem staticServices_putServices (hs : s.Stored) (hperm : entries.Perm (staticServices descriptions))
    (hempty : s.services = ∅) : (s.putServices (entries.filter Service.accepted)).Stored :=
  hs.putServices hempty (fun _ hsvc => (List.mem_filter.mp hsvc).2) (staticServices_coherent hperm)

theorem ensureServiceRegistrySeeded_stored (hs : s.Stored) {seeded : Bool} {u : Unit}
    (hperm : entries.Perm (staticServices descriptions))
    (h : ensureServiceRegistrySeeded entries seeded s = .ok u s') : s'.Stored := by
  unfold ensureServiceRegistrySeeded at h
  cases seeded with
  | true =>
    cases h
    exact hs
  | false =>
    obtain ⟨services, _, hread, h⟩ := bind_ok.mp h
    obtain ⟨rfl, rfl⟩ := reading_ok.mp hread
    by_cases hempty : s.services.entries ≠ []
    · rw [if_pos hempty] at h
      cases h
      exact hs
    · rw [if_neg hempty, seedServices_eq] at h
      cases h
      exact staticServices_putServices hs hperm (AList.ext (not_not.mp hempty))

/-- What every run keeps. -/
structure App.Kept (app : App) : Prop where
  stored : app.world.chain.Stored
  announced : app.versions.Announced

/-- **One step of the module.** -/
theorem App.Kept.step {app app' : App} {act : AppAction} (h : app.Kept) (hsw : 0 ≤ swVersion)
    (hstep : appStep cr codec descriptions swVersion app act = some app') : app'.Kept := by
  cases act with
  | chain act =>
    obtain ⟨w, hw, rfl⟩ := Option.map_eq_some_iff.mp hstep
    exact ⟨h.stored.step hw, h.announced⟩
  | setVersion msg =>
    obtain ⟨t, ht, rfl⟩ := Option.map_eq_some_iff.mp hstep
    exact ⟨h.stored, h.announced.step hsw ht⟩
  | beginBlock validators entries bank journal =>
    simp only [appStep] at hstep
    split at hstep
    · rename_i hperm
      split at hstep
      · rename_i hversions hseed
        obtain rfl := Option.some.inj hstep
        have hbank := stored_writes.bank _ bank journal h.stored
        exact ⟨ensureServiceRegistrySeeded_stored hbank (List.isPerm_iff.mp hperm) hseed,
          h.announced.step hsw hversions⟩
      · cases hstep
    · cases hstep

/-- The genesis lists its services coherently: what is listed last under an id is listed
last under its name, in any letter case. -/
def GenesisState.Coherent (gs : GenesisState) : Prop :=
  SecondaryIndex.Coherent Service.key Service.id (gs.services.filter Service.accepted)

/-- **The start of the chain.** -/
theorem initGenesis_kept {bank : Ledger Account String} {w : World} {seeded : Bool}
    (hperm : entries.Perm (staticServices descriptions)) (hvalid : gs.Valid codec)
    (hcoherent : gs.Coherent)
    (hinit : initGenesis codec entries gs { bank := bank } ∅ = some (w.chain, versions)) :
    App.Kept { world := w, versions := versions, seeded := seeded } := by
  unfold initGenesis at hinit
  cases hr : initRecords entries gs { bank := bank } with
  | error e t =>
    rw [hr] at hinit
    cases hinit
  | ok u t =>
    rw [hr] at hinit
    obtain ⟨rfl, rfl⟩ := Prod.mk.inj (Option.some.inj hinit)
    refine ⟨?_, initVersions_announced hvalid.given hvalid.version⟩
    obtain ⟨_, s₁, hseed, hrest⟩ := bind_ok.mp hr
    have hseeded : s₁.Stored := by
      rw [seedServices_eq] at hseed
      cases hseed
      by_cases hnil : gs.services = []
      · rw [if_pos hnil]
        exact staticServices_putServices (.empty bank) hperm rfl
      · rw [if_neg hnil]
        exact (ChainState.Stored.empty bank).putServices rfl
          (fun _ hsvc => (List.mem_filter.mp hsvc).2) hcoherent
    have hloops : Preserves ChainState.Stored (do
        forEach (fun provider => logged (setProvider provider)) gs.providers
        forEach (fun contract => logged (setContract contract)) gs.contracts
        writing fun s => { s with nextContractId := gs.nextContractId }
        forEach (fun set => logged (setContractExpirationSet set)) gs.contractExpirationSets
        forEach (fun set => logged (importUserContractSet set)) gs.userContractSets) := by
      refine (Preserves.forEach (fun p => (setProvider_preserves stored_writes p).logged) _).bind
        fun _ => ?_
      refine (Preserves.forEach (fun c => (setContract_preserves stored_writes c).logged) _).bind
        fun _ => ?_
      refine (Preserves.writing fun s hs => stored_writes.next s _ hs).bind fun _ => ?_
      refine (Preserves.forEach (fun r =>
        (setContractExpirationSet_preserves stored_writes r).logged) _).bind fun _ => ?_
      refine Preserves.forEach (fun set => Preserves.logged ?_) _
      exact Preserves.failIf fun _ => setUserContractSet_preserves stored_writes set
    have hkept := hloops s₁ hseeded
    rw [hrest] at hkept
    exact hkept

/-! ## The round trip -/

/-- What is exported is valid, and importing it on an empty store restores the state. -/
structure RoundTrips (codec : AddressCodec) (validators : List Validator) (s : ChainState)
    (versions : VersionStore) : Prop where
  valid : (exportGenesis codec validators s versions).validate codec = .ok ()
  restored : ∀ entries bank, ∃ s' versions',
    initGenesis codec entries (exportGenesis codec validators s versions) { bank := bank } ∅ =
      some (s', versions') ∧ Restored codec validators s versions s' versions'

/-- **Out and in again.**  Every state that a run reaches from a valid genesis that lists
its services coherently is restored from what it exports, while its registry is not empty. -/
theorem genesis_roundTrips (hlaw : codec.Lawful) (hread : codec.ReadsNonempty) (hsw : 0 ≤ swVersion)
    (hperm : entries.Perm (staticServices descriptions))
    (hvalid : gs.validate codec = .ok ()) (hcoherent : gs.Coherent)
    {bank : Ledger Account String} {app₀ app : App} {actions : List AppAction}
    (hinit : initGenesis codec entries gs { bank := bank } ∅ =
      some (app₀.world.chain, app₀.versions))
    (hrun : Runs.run (appStep cr codec descriptions swVersion) app₀ actions = some app)
    (hne : app.world.chain.services ≠ ∅) (hnodup : (validators.map Validator.operator).Nodup) :
    RoundTrips codec validators app.world.chain app.versions := by
  have hstart : app₀.Kept := initGenesis_kept hperm (GenesisState.validate_ok.mp hvalid) hcoherent hinit
  have hkept : app.Kept := by
    refine Runs.run_induct (P := App.Kept) ?_ hstart hrun
    exact fun _ _ _ h hstep => h.step hsw hstep
  refine ⟨?_, ?_⟩
  · exact GenesisState.validate_ok.mpr
      (exportGenesis_valid hkept.stored hkept.announced hlaw hread hnodup)
  · intro entries bank
    exact ⟨_, _, initGenesis_exportGenesis hkept.stored hne entries bank,
      exportGenesis_restored hkept.stored bank⟩

namespace Sample

theorem addressCodec_reads : addressCodec.ReadsNonempty := by
  intro text h
  obtain ⟨d, hd, hnil⟩ := Option.map_eq_some_iff.mp h
  have hne : ∀ d ∈ operators, d.1 ≠ [] := by decide +kernel
  exact hne d (List.mem_of_find?_eq_some hd) hnil

/-- One service, and the version of the validator. -/
def listed : GenesisState where
  services := [{ id := 5, name := "Bitcoin" }]
  validatorVersions := [{ validatorAddress := validator.operator, version := 3 }]

/-- A service is listed under two names. -/
def relisted : GenesisState where
  services := [{ id := 5, name := "b" }, { id := 5, name := "a" }]

/-- The start of the chain with a genesis of services. -/
def start (gs : GenesisState) : App where
  world :=
    { ctx := { genesis.ctx with authority := provider.account }
      chain := gs.imported ∅ }
  versions := initVersions addressCodec gs ∅

theorem start_init {gs : GenesisState} (hne : gs.services ≠ [])
    (hservices : ∀ svc ∈ gs.services, svc.accepted = true) (hproviders : gs.providers = [])
    (hcontracts : gs.contracts = []) (hlists : gs.contractExpirationSets = [])
    (husers : gs.userContractSets = []) (entries : List Service) :
    initGenesis addressCodec entries gs { bank := ∅ } ∅ =
      some ((start gs).world.chain, (start gs).versions) := by
  have htaken := initRecords_taken hne hservices (by rw [hproviders]; nofun)
    (by rw [hcontracts]; nofun) (by rw [hlists]; nofun) (by rw [husers]; nofun) entries ∅
  unfold initGenesis
  rw [htaken]
  rfl

/-- A service is registered, a version announced, and the block ends. -/
def block : List AppAction :=
  [.chain (.msg (.registerService
      { creator := provider.account, id := 6, name := "Ether", description := ""
        serviceType := "" })),
   .setVersion announcement, .chain .endBlock]

end Sample

/-- A chain with one service, and a second one that is registered. -/
theorem block_roundTrips : ∃ app,
    Runs.run (appStep Sample.crypto Sample.addressCodec (fun _ => "") 15) (Sample.start Sample.listed)
      Sample.block = some app ∧
    app.world.chain.services.entries.length = 2 ∧
    RoundTrips Sample.addressCodec [Sample.validator] app.world.chain app.versions := by
  have hrun : (Runs.run (appStep Sample.crypto Sample.addressCodec (fun _ => "") 15)
      (Sample.start Sample.listed) Sample.block).map
        (fun app => app.world.chain.services.entries.length) = some 2 := by decide +kernel
  obtain ⟨app, hrun, hlength⟩ := Option.map_eq_some_iff.mp hrun
  refine ⟨app, hrun, hlength, ?_⟩
  have hinit := @Sample.start_init Sample.listed (by decide) (by decide +kernel) rfl rfl rfl rfl
    (staticServices fun _ => "")
  have hcoherent : Sample.listed.Coherent := by
    unfold GenesisState.Coherent SecondaryIndex.Coherent
    decide +kernel
  refine genesis_roundTrips Sample.addressCodec_lawful Sample.addressCodec_reads (by decide)
    (List.Perm.refl _) (by decide +kernel) hcoherent hinit hrun ?_ (by decide +kernel)
  intro hempty
  rw [hempty] at hlength
  cases hlength

/-- **A service that changes its name.**  The genesis is valid, and what it says of id 5 last
is read; the export lists the names in order, so another one comes last. -/
theorem relisted_service_changes : Sample.relisted.validate Sample.addressCodec = .ok () ∧
    initGenesis Sample.addressCodec (staticServices fun _ => "") Sample.relisted { bank := ∅ } ∅ =
      some ((Sample.start Sample.relisted).world.chain, (Sample.start Sample.relisted).versions) ∧
    (Sample.start Sample.relisted).world.chain.services ≠ ∅ ∧
    ¬RoundTrips Sample.addressCodec [] (Sample.start Sample.relisted).world.chain
      (Sample.start Sample.relisted).versions := by
  have hlength : (Sample.start Sample.relisted).world.chain.services.entries.length = 2 := by
    decide +kernel
  refine ⟨by decide +kernel,
    Sample.start_init (by decide) (by decide +kernel) rfl rfl rfl rfl _, ?_, ?_⟩
  · intro hempty
    rw [hempty] at hlength
    cases hlength
  rintro ⟨-, hrestored⟩
  obtain ⟨s', versions', hinit, hsame⟩ := hrestored [] ∅
  have hbefore : getServiceByID 5 (Sample.start Sample.relisted).world.chain =
      .ok (some { id := 5, name := "a" }) (Sample.start Sample.relisted).world.chain :=
    getServiceByID_ok.mpr ⟨by decide +kernel, rfl⟩
  have hafter := getServiceByID_ok.mp ((hsame.byID 5 _).mpr hbefore)
  have hname : ((initGenesis Sample.addressCodec []
      (exportGenesis Sample.addressCodec [] (Sample.start Sample.relisted).world.chain
        (Sample.start Sample.relisted).versions) { bank := ∅ } ∅).bind fun p =>
      (p.1.serviceIds.lookup 5).bind fun name => p.1.services.lookup (toLower name)) =
      some { id := 5, name := "b" } := by decide +kernel
  rw [hinit, Option.bind_some, hafter.1] at hname
  exact absurd hname (by decide)

end Arkeo
