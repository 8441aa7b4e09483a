import Arkeo.KeeperSpec
import Arkeo.KeyedStore
import Arkeo.Services
import Arkeo.Versions
import Mathlib

/-! # The keys of the store

All records of the module are in one store.  Most keys are made by `GetKey`, of a prefix, a
slash and the identifier in capitals; the service registry makes its own, in small letters.
A prefix ends with a slash, so that the keys of `GetKey` have two.

Two keys are the same when they are of one kind and their identifiers are the same up to their
letter case (`storeKey_inj`), and the iterators find the records of their kind (`store_keys`).
-/
namespace Arkeo

/-! ## Keys -/

def prefixVersion : String := "ver/"
def prefixProvider : String := "p/"
def prefixContract : String := "c/"
def prefixContractNextId : String := "cni/"
def prefixContractExpirationSet : String := "ces/"
def prefixUserContractSet : String := "ucs/"
def serviceNameKeyPrefix : String := "service/name/"
def serviceIDKeyPrefix : String := "service/id/"
def serviceSeedMarkerKey : String := "service/seeded"
def updateParamsEmissionKey : String := "arkeo/params/emission_curve_done"

/-- `GetKey`. -/
def getKey (dbPrefix key : String) : String := dbPrefix ++ "/" ++ toUpper key

/-- `Provider.Key`, before the store writes it in capitals. -/
def Provider.keyText (pubKey : PubKey) (service : ℕ) : String :=
  pubKey ++ "/" ++ serviceString service

/-- What a key of the store belongs to.  A validator's address is not empty. -/
inductive StoreKey where
  | version
  | versionForAddress (addr : {addr : Bytes // addr ≠ []})
  | provider (pubKey : PubKey) (service : ℕ)
  | contract (id : ℕ)
  | nextContractId
  | expirationSet (height : Int64)
  | userSet (user : PubKey)
  | serviceName (name : String)
  | serviceID (id : ℕ)
  | serviceSeedMarker
  | updateParamsEmission
  deriving DecidableEq

/-- The text of a key. -/
def StoreKey.text (codec : AddressCodec) : StoreKey → String
  | .version => getKey prefixVersion ""
  | .versionForAddress addr => getKey prefixVersion (codec.valString addr.val)
  | .provider pubKey service => getKey prefixProvider (Provider.keyText pubKey service)
  | .contract id => getKey prefixContract id.repr
  | .nextContractId => prefixContractNextId
  | .expirationSet height => getKey prefixContractExpirationSet height.toInt.repr
  | .userSet user => getKey prefixUserContractSet user
  | .serviceName name => serviceNameKeyPrefix ++ toLower name
  | .serviceID id => serviceIDKeyPrefix ++ id.repr
  | .serviceSeedMarker => serviceSeedMarkerKey
  | .updateParamsEmission => updateParamsEmissionKey

/-- The bytes of a key. -/
def StoreKey.bytes (codec : AddressCodec) (k : StoreKey) : Bytes := nameBytes (k.text codec)

/-- The identifier in the letter case of its key. -/
def StoreKey.folded : StoreKey → StoreKey
  | .provider pubKey service => .provider (toUpper pubKey) service
  | .userSet user => .userSet (toUpper user)
  | .serviceName name => .serviceName (toLower name)
  | k => k

/-! ## Kinds -/

inductive RecordKind where
  | version
  | provider
  | contract
  | nextContractId
  | expirationSet
  | userSet
  | serviceName
  | serviceID
  | serviceSeedMarker
  | updateParamsEmission
  deriving DecidableEq

def StoreKey.kind : StoreKey → RecordKind
  | .version | .versionForAddress _ => .version
  | .provider _ _ => .provider
  | .contract _ => .contract
  | .nextContractId => .nextContractId
  | .expirationSet _ => .expirationSet
  | .userSet _ => .userSet
  | .serviceName _ => .serviceName
  | .serviceID _ => .serviceID
  | .serviceSeedMarker => .serviceSeedMarker
  | .updateParamsEmission => .updateParamsEmission

/-- How the keys of a kind begin. -/
def RecordKind.headText : RecordKind → String
  | .version => prefixVersion ++ "/"
  | .provider => prefixProvider ++ "/"
  | .contract => prefixContract ++ "/"
  | .nextContractId => prefixContractNextId
  | .expirationSet => prefixContractExpirationSet ++ "/"
  | .userSet => prefixUserContractSet ++ "/"
  | .serviceName => serviceNameKeyPrefix
  | .serviceID => serviceIDKeyPrefix
  | .serviceSeedMarker => serviceSeedMarkerKey
  | .updateParamsEmission => updateParamsEmissionKey

def RecordKind.head (kind : RecordKind) : Bytes := nameBytes kind.headText

/-- How a key goes on. -/
def StoreKey.rest (codec : AddressCodec) : StoreKey → String
  | .versionForAddress addr => toUpper (codec.valString addr.val)
  | .provider pubKey service => toUpper (Provider.keyText pubKey service)
  | .contract id => toUpper id.repr
  | .expirationSet height => toUpper height.toInt.repr
  | .userSet user => toUpper user
  | .serviceName name => toLower name
  | .serviceID id => id.repr
  | _ => ""

variable {codec : AddressCodec} {k k' : StoreKey}

theorem StoreKey.text_eq (k : StoreKey) : k.text codec = k.kind.headText ++ k.rest codec := by
  cases k <;> simp [text, kind, rest, getKey, RecordKind.headText, toUpper]

theorem StoreKey.bytes_eq (k : StoreKey) :
    k.bytes codec = k.kind.head ++ nameBytes (k.rest codec) := by
  rw [bytes, text_eq, nameBytes_append]
  rfl

def RecordKind.all : List RecordKind :=
  [.version, .provider, .contract, .nextContractId, .expirationSet, .userSet, .serviceName,
    .serviceID, .serviceSeedMarker, .updateParamsEmission]

theorem RecordKind.mem_all (kind : RecordKind) : kind ∈ RecordKind.all := by
  cases kind <;> decide

/-- **No head begins another one.** -/
theorem head_prefixFree : Keyed.PrefixFree RecordKind.head := by
  have hall : ∀ i ∈ RecordKind.all, ∀ j ∈ RecordKind.all, i.head <+: j.head → i = j := by
    decide +kernel
  intro i j
  exact hall i i.mem_all j j.mem_all

/-! ## Letter case -/

theorem toUpper_append (a b : String) : toUpper (a ++ b) = toUpper a ++ toUpper b := by
  unfold toUpper
  rw [String.toList_append, List.map_append, String.ofList_append]

/-- A text in ASCII has the small letters of its capitals. -/
theorem toLower_toUpper {t : String} (h : ∀ c ∈ t.toList, c.toNat < 128) :
    toLower (toUpper t) = toLower t := by
  unfold toLower toUpper
  rw [String.toList_ofList, List.map_map]
  congr 1
  exact List.map_congr_left fun c hc => LetterCase.toLower_toUpper (h c hc)

/-- A text of capitals is in capitals. -/
theorem toUpper_of_capitals {t : String} (h : ∀ c ∈ t.toList, LetterCase.toUpper c = c) :
    toUpper t = t := by
  unfold toUpper
  rw [List.map_congr_left h, List.map_id', String.ofList_toList]

theorem toUpper_of_isDigit {c : Char} (h : c.isDigit = true) : LetterCase.toUpper c = c := by
  simp only [Char.isDigit, Bool.and_eq_true, decide_eq_true_eq, ge_iff_le,
    UInt32.le_iff_toNat_le] at h
  have hdigit : c.toNat ≤ 57 := h.2
  exact LetterCase.toUpper_eq_self (by omega) (by omega)

@[simp] theorem toUpper_natRepr (n : ℕ) : toUpper n.repr = n.repr := by
  apply toUpper_of_capitals
  intro c hc
  refine toUpper_of_isDigit ?_
  by_contra hd
  exact Text.notMem_natRepr (by simpa using hd) n hc

@[simp] theorem toUpper_intRepr (i : ℤ) : toUpper i.repr = i.repr := by
  apply toUpper_of_capitals
  intro c hc
  by_cases hm : c = '-'
  · rw [hm]
    rfl
  · refine toUpper_of_isDigit ?_
    by_contra hd
    exact Text.notMem_intRepr (by simpa using hd) hm i hc

/-! ## Names of services -/

theorem byte_of_slash {t : String} (h : '/' ∈ t.toList) : 47 ∈ nameBytes t := by
  rw [nameBytes, Text.toUTF8_eq_flatMap]
  exact List.mem_flatMap.mpr ⟨'/', h, by decide⟩

/-- No name of an id has a slash. -/
theorem slash_notMem_serviceString (n : ℕ) : '/' ∉ (serviceString n).toList := by
  intro h
  rcases Nat.lt_or_ge n serviceNames.length with hn | hn
  · rw [serviceString_of_lt hn] at h
    have hall : ∀ name ∈ serviceNames, 47 ∉ nameBytes name := by decide +kernel
    exact hall _ (List.getElem_mem hn) (byte_of_slash h)
  · rw [serviceString_of_le hn, String.toList_append] at h
    rcases List.mem_append.mp h with h | h
    · exact absurd h (by decide)
    · exact Text.notMem_natRepr (by decide) n h

/-- **The name of an id tells the id**, in any letter case. -/
theorem serviceString_lower_inj {n m : ℕ}
    (h : toLower (serviceString n) = toLower (serviceString m)) : n = m := by
  have hnumbered : ∀ i : ℕ, toLower ("service-" ++ toString i) = "service-" ++ toString i :=
    fun i => toLower_of_bytes (numbered_lower i)
  have hmixed : ∀ i j, i < serviceNames.length → serviceNames.length ≤ j →
      toLower (serviceString i) ≠ toLower (serviceString j) := by
    intro i j hi hj heq
    rw [serviceString_of_lt hi, serviceString_of_le hj, hnumbered] at heq
    refine notMem_serviceNames_lower (numbered_not_mem j) ?_
      (heq ▸ List.mem_map_of_mem (List.getElem_mem hi))
    intro hmem
    obtain ⟨name, hname, hlow⟩ := List.mem_map.mp hmem
    have hall : ∀ name ∈ capitalised,
        firstPart (nameBytes (toLower name)) ≠ nameBytes "service" := by decide +kernel
    exact hall name hname (by rw [hlow, (numbered_parts j).1])
  rcases Nat.lt_or_ge n serviceNames.length with hn | hn
  · rcases Nat.lt_or_ge m serviceNames.length with hm | hm
    · rw [serviceString_of_lt hn, serviceString_of_lt hm] at h
      have hname := List.inj_on_of_nodup_map serviceNames_lower_nodup (List.getElem_mem hn)
        (List.getElem_mem hm) h
      exact serviceNames_nodup.getElem_inj_iff.mp hname
    · exact absurd h (hmixed n m hn hm)
  · rcases Nat.lt_or_ge m serviceNames.length with hm | hm
    · exact absurd h.symm (hmixed m n hm hn)
    · rw [serviceString_of_le hn, serviceString_of_le hm, hnumbered, hnumbered,
        String.append_right_inj] at h
      exact Text.natRepr_inj h

theorem serviceString_upper_inj {n m : ℕ}
    (h : toUpper (serviceString n) = toUpper (serviceString m)) : n = m := by
  apply serviceString_lower_inj
  rw [← toLower_toUpper (serviceString_ascii n), h, toLower_toUpper (serviceString_ascii m)]

/-- Services are equal exactly if their ids are. -/
theorem serviceEquals_iff {n m : ℕ} : serviceEquals n m = true ↔ n = m := by
  constructor
  · intro h
    apply serviceString_lower_inj
    rw [serviceEquals, LetterCase.equalFold_ascii (serviceString_ascii n) (serviceString_ascii m)] at h
    exact congrArg String.ofList h
  · rintro rfl
    exact serviceEquals_self n

theorem slash_notMem_toUpper {t : String} (h : '/' ∉ t.toList) : '/' ∉ (toUpper t).toList := by
  unfold toUpper
  rw [String.toList_ofList]
  intro hmem
  obtain ⟨c, hc, hup⟩ := List.mem_map.mp hmem
  -- no letter has a slash for its capital
  have hcode := LetterCase.toNat_toUpper c
  rw [hup] at hcode
  have hslash := (LetterCase.upperCode_mem_iff (.inl (by decide)) (by decide +kernel)).mp
    ⟨hcode.le, hcode.ge⟩
  have hc47 : c = '/' := by
    rw [← Char.ofNat_toNat c, ← Nat.le_antisymm hslash.1 hslash.2]
    rfl
  exact h (hc47 ▸ hc)

/-- **The key of a provider** tells the key and the service: what is after the last slash is
the name of an id. -/
theorem providerKey_inj {pubKey pubKey' : PubKey} {n m : ℕ} :
    toUpper (Provider.keyText pubKey n) = toUpper (Provider.keyText pubKey' m) ↔
      toUpper pubKey = toUpper pubKey' ∧ n = m := by
  unfold Provider.keyText
  simp only [toUpper_append]
  constructor
  · intro h
    have hlist := congrArg (fun t => t.toList.reverse) h
    simp only [String.toList_append, List.reverse_append] at hlist
    have hslash : (toUpper "/").toList.reverse = ['/'] := by decide
    rw [hslash, List.singleton_append, List.singleton_append] at hlist
    have hnone : ∀ i, '/' ∉ (toUpper (serviceString i)).toList.reverse := by
      intro i hmem
      exact slash_notMem_toUpper (slash_notMem_serviceString i) (List.mem_reverse.mp hmem)
    obtain ⟨hservice, hkey⟩ := Text.field_inj (hnone n) (hnone m) hlist
    refine ⟨String.toList_injective (List.reverse_injective hkey), ?_⟩
    exact serviceString_upper_inj (String.toList_injective (List.reverse_injective hservice))
  · rintro ⟨hkey, rfl⟩
    rw [hkey]

/-! ## Records -/

/-- The key of an address is not that of the store's own version. -/
theorem AddressCodec.Lawful.valString_ne (hlaw : codec.Lawful)
    (addr : {addr : Bytes // addr ≠ []}) :
    toUpper (codec.valString addr.val) ≠ "" := by
  intro h
  refine addr.property (hlaw.injective _ _ ?_)
  rw [h, hlaw.empty]
  rfl

/-- Within a kind the rest of the key tells the record. -/
theorem StoreKey.rest_inj (hlaw : codec.Lawful) (hkind : k.kind = k'.kind) :
    k.rest codec = k'.rest codec ↔ k.folded = k'.folded := by
  cases k with
  | version =>
    cases k' with
    | version => exact ⟨fun _ => rfl, fun _ => rfl⟩
    | versionForAddress addr =>
      constructor
      · intro h
        exact absurd h.symm (hlaw.valString_ne addr)
      · intro h
        cases h
    | _ => cases hkind
  | versionForAddress addr =>
    cases k' with
    | version =>
      constructor
      · intro h
        exact absurd h (hlaw.valString_ne addr)
      · intro h
        cases h
    | versionForAddress addr' =>
      constructor
      · intro h
        have haddr := hlaw.injective _ _ h
        rw [Subtype.ext haddr]
      · intro h
        cases h
        rfl
    | _ => cases hkind
  | provider pubKey service =>
    cases k' with
    | provider pubKey' service' =>
      refine providerKey_inj.trans ?_
      show _ ↔ StoreKey.provider (toUpper pubKey) service =
        StoreKey.provider (toUpper pubKey') service'
      rw [StoreKey.provider.injEq]
    | _ => cases hkind
  | contract id =>
    cases k' with
    | contract id' =>
      simp only [rest, folded, toUpper_natRepr, StoreKey.contract.injEq]
      exact ⟨Text.natRepr_inj, congrArg _⟩
    | _ => cases hkind
  | nextContractId =>
    cases k' with
    | nextContractId => exact ⟨fun _ => rfl, fun _ => rfl⟩
    | _ => cases hkind
  | expirationSet height =>
    cases k' with
    | expirationSet height' =>
      simp only [rest, folded, toUpper_intRepr, StoreKey.expirationSet.injEq]
      constructor
      · intro h
        exact Int64.toInt_inj.mp (Text.intRepr_inj h)
      · rintro rfl
        rfl
    | _ => cases hkind
  | userSet user =>
    cases k' with
    | userSet user' => simp only [rest, folded, StoreKey.userSet.injEq]
    | _ => cases hkind
  | serviceName name =>
    cases k' with
    | serviceName name' => simp only [rest, folded, StoreKey.serviceName.injEq]
    | _ => cases hkind
  | serviceID id =>
    cases k' with
    | serviceID id' =>
      simp only [rest, folded, StoreKey.serviceID.injEq]
      exact ⟨Text.natRepr_inj, congrArg _⟩
    | _ => cases hkind
  | serviceSeedMarker =>
    cases k' with
    | serviceSeedMarker => exact ⟨fun _ => rfl, fun _ => rfl⟩
    | _ => cases hkind
  | updateParamsEmission =>
    cases k' with
    | updateParamsEmission => exact ⟨fun _ => rfl, fun _ => rfl⟩
    | _ => cases hkind

/-- **Keys are the same when their records are**, up to the letter case of the identifiers. -/
theorem storeKey_inj (hlaw : codec.Lawful) :
    k.bytes codec = k'.bytes codec ↔ k.folded = k'.folded := by
  have hfold : ∀ k : StoreKey, k.folded.kind = k.kind := by
    intro k
    cases k <;> rfl
  rw [StoreKey.bytes_eq, StoreKey.bytes_eq]
  constructor
  · intro h
    obtain ⟨hkind, hrest⟩ := head_prefixFree.append_inj h
    exact (StoreKey.rest_inj hlaw hkind).mp (nameBytes_injective hrest)
  · intro h
    have hkind : k.kind = k'.kind := by
      rw [← hfold k, h, hfold]
    rw [hkind, (StoreKey.rest_inj hlaw hkind).mpr h]

/-! ## Iterators -/

section Iterators

variable {V : Type}

/-- The store as it is kept, by bytes. -/
abbrev RawStore (V : Type) := Keyed.Store UInt8 V

/-- The records in it, by kind and identifier. -/
abbrev RecordTable (V : Type) := AList fun _ : StoreKey => V

/-- The store after a list of writes. -/
def written (codec : AddressCodec) (ops : List (Keyed.Op StoreKey V)) : RawStore V :=
  Keyed.Op.applyAll (StoreKey.bytes codec) ∅ ops

/-- The records after the same writes, each to the record of its kind and identifier. -/
def recorded (ops : List (Keyed.Op StoreKey V)) : RecordTable V :=
  Keyed.Op.applyAll StoreKey.folded ∅ ops

/-- `getIterator`. -/
def getIterator (s : RawStore V) (dbPrefix : String) : List (Sigma fun _ : Bytes => V) :=
  s.iterator (nameBytes dbPrefix)

def getProviderIterator (s : RawStore V) : List (Sigma fun _ : Bytes => V) :=
  getIterator s prefixProvider

def getContractIterator (s : RawStore V) : List (Sigma fun _ : Bytes => V) :=
  getIterator s prefixContract

def getContractExpirationSetIterator (s : RawStore V) : List (Sigma fun _ : Bytes => V) :=
  getIterator s prefixContractExpirationSet

def getUserContractSetIterator (s : RawStore V) : List (Sigma fun _ : Bytes => V) :=
  getIterator s prefixUserContractSet

/-- The prefixes of the iterators, with the kinds of records. -/
def iteratedPrefixes : List (String × RecordKind) :=
  [(prefixProvider, .provider), (prefixContract, .contract),
    (prefixContractExpirationSet, .expirationSet), (prefixUserContractSet, .userSet)]

theorem iteratedPrefixes_select :
    ∀ x ∈ iteratedPrefixes, Keyed.Selects RecordKind.head (nameBytes x.1) x.2 := by
  have hall : ∀ x ∈ iteratedPrefixes, nameBytes x.1 <+: x.2.head ∧ ∀ j ∈ RecordKind.all,
      nameBytes x.1 <+: j.head ∨ j.head <+: nameBytes x.1 → j = x.2 := by
    decide +kernel
  intro x hx
  exact ⟨(hall x hx).1, fun j => (hall x hx).2 j j.mem_all⟩

theorem written_represents (hlaw : codec.Lawful) (ops : List (Keyed.Op StoreKey V)) :
    Keyed.Represents (StoreKey.bytes codec) StoreKey.folded (written codec ops) (recorded ops) :=
  Keyed.represents_empty.applyAll (fun _ _ => storeKey_inj hlaw) ops

/-- The results of an iterator are the records of a kind, each once. -/
def IteratesKind (codec : AddressCodec) (t : RecordTable V) (kind : RecordKind)
    (l : List (Sigma fun _ : Bytes => V)) : Prop :=
  l.Nodup ∧ ∀ e, e ∈ l ↔
    ∃ k : StoreKey, k.kind = kind ∧ k.bytes codec = e.1 ∧ t.lookup k.folded = some e.2

theorem iteratesKind {s : RawStore V} {t : RecordTable V}
    (h : Keyed.Represents (StoreKey.bytes codec) StoreKey.folded s t) {x : String × RecordKind}
    (hx : x ∈ iteratedPrefixes) : IteratesKind codec t x.2 (getIterator s x.1) := by
  refine ⟨Keyed.nodup_iterator _ _, ?_⟩
  intro e
  rw [getIterator, h.mem_iterator]
  have hpre : ∀ k : StoreKey, nameBytes x.1 <+: k.bytes codec ↔ k.kind = x.2 := by
    intro k
    rw [StoreKey.bytes_eq]
    exact (iteratedPrefixes_select x hx).prefix_iff
  simp only [hpre]

end Iterators

/-- **Keys tell records apart.**  The keys of two records are the same exactly when the records
are of one kind and have the same identifier up to letter case; the name of a service tells its
id in any letter case; and whatever was written, the iterators go through the records of their
kind. -/
theorem store_keys (hlaw : codec.Lawful) :
    (∀ k k' : StoreKey, k.bytes codec = k'.bytes codec ↔ k.folded = k'.folded) ∧
    (∀ n m, toLower (serviceString n) = toLower (serviceString m) → n = m) ∧
    ∀ {V : Type} (ops : List (Keyed.Op StoreKey V)),
      IteratesKind codec (recorded ops) .provider (getProviderIterator (written codec ops)) ∧
      IteratesKind codec (recorded ops) .contract (getContractIterator (written codec ops)) ∧
      IteratesKind codec (recorded ops) .expirationSet
        (getContractExpirationSetIterator (written codec ops)) ∧
      IteratesKind codec (recorded ops) .userSet
        (getUserContractSetIterator (written codec ops)) := by
  refine ⟨fun _ _ => storeKey_inj hlaw, fun _ _ => serviceString_lower_inj, ?_⟩
  intro V ops
  have h := written_represents hlaw ops
  refine ⟨iteratesKind (x := (prefixProvider, .provider)) h ?_,
    iteratesKind (x := (prefixContract, .contract)) h ?_,
    iteratesKind (x := (prefixContractExpirationSet, .expirationSet)) h ?_,
    iteratesKind (x := (prefixUserContractSet, .userSet)) h ?_⟩
  all_goals simp [iteratedPrefixes]

namespace Sample

/-- A provider, a contract and a set of contracts that is written and deleted again. -/
def storeWrites : List (Keyed.Op StoreKey ℕ) :=
  [.set (.provider "tarkeopub1addwnpepq" 1) 10, .set (.userSet "tarkeopub1addwnpepq") 20,
    .set (.contract 1) 30, .delete (.userSet "TARKEOPUB1ADDWNPEPQ")]

end Sample

/-- The contract is not taken for anything that expires at the height of its id. -/
theorem sample_keys :
    (StoreKey.contract 1).bytes Sample.addressCodec ≠
      (StoreKey.expirationSet 1).bytes Sample.addressCodec ∧
    IteratesKind Sample.addressCodec (recorded Sample.storeWrites) .contract
      (getContractIterator (written Sample.addressCodec Sample.storeWrites)) := by
  obtain ⟨hkeys, -, hiterate⟩ := store_keys Sample.addressCodec_lawful
  refine ⟨?_, (hiterate Sample.storeWrites).2.1⟩
  intro h
  cases (hkeys _ _).mp h

/-! ## The tables of the chain

The state of the chain keeps the records of each kind in a table of its own.  The store holds
them all, as long as every write of the keeper is made under its key. -/

/-- What is stored under a key. -/
inductive StoredRecord where
  | provider (p : Provider)
  | contract (c : Contract)
  | expirationSet (set : ContractExpirationSet)
  | userSet (set : UserContractSet)
  | nextContractId (id : ℕ)
  | service (svc : Service)
  | serviceName (name : String)

/-- The next id, once it was written. -/
def ChainState.writtenNextId (s : ChainState) : Option ℕ :=
  if s.nextContractId = 0 then none else some s.nextContractId

/-- The record that the chain has under a key. -/
def ChainState.record (s : ChainState) : StoreKey → Option StoredRecord
  | .provider pubKey service => (s.providers.lookup (toUpper pubKey, service)).map .provider
  | .contract id => (s.contracts.lookup id).map .contract
  | .expirationSet height => (s.expirationSets.lookup height).map .expirationSet
  | .userSet user => (s.userSets.lookup (toUpper user)).map .userSet
  | .nextContractId => s.writtenNextId.map .nextContractId
  | .serviceName name => (s.services.lookup (toLower name)).map .service
  | .serviceID id => (s.serviceIds.lookup id).map .serviceName
  | .version | .versionForAddress _ | .serviceSeedMarker | .updateParamsEmission => none

/-- The kinds of records that are in the state of the chain: all but the versions and the two
markers. -/
def StoreKey.OfChain (k : StoreKey) : Prop :=
  k.kind ∉ [RecordKind.version, .serviceSeedMarker, .updateParamsEmission]

/-- The store holds the tables of the chain, whatever else is in it. -/
def Holds (codec : AddressCodec) (raw : RawStore StoredRecord) (s : ChainState) : Prop :=
  ∃ t : RecordTable StoredRecord,
    Keyed.Represents (StoreKey.bytes codec) StoreKey.folded raw t ∧
      ∀ k : StoreKey, k.OfChain → t.lookup k.folded = s.record k

section Tables

open Exec

variable {raw : RawStore StoredRecord} {s s' : ChainState} {u : Unit}

/-- Both begin empty. -/
theorem holds_empty : Holds codec ∅ ({} : ChainState) := by
  refine ⟨∅, Keyed.represents_empty, ?_⟩
  intro k _
  rw [AList.lookup_empty]
  cases k <;> rfl

/-- A write whose record alone changes. -/
theorem Holds.apply (hlaw : codec.Lawful) (h : Holds codec raw s)
    (op : Keyed.Op StoreKey StoredRecord)
    (hs : ∀ k : StoreKey, s'.record k = if k.folded = op.key.folded then op.value else s.record k) :
    Holds codec (op.apply (StoreKey.bytes codec) raw) s' := by
  obtain ⟨t, ht, hrecord⟩ := h
  refine ⟨_, ht.apply (fun _ _ => storeKey_inj hlaw) op, ?_⟩
  intro k hk
  rw [Keyed.Op.lookup_apply, hs k, hrecord k hk]

/-- A write to one of the tables. -/
inductive TableWrite where
  | provider (op : Keyed.Op (PubKey × ℕ) Provider)
  | contract (op : Keyed.Op ℕ Contract)
  | expirationSet (op : Keyed.Op Int64 ContractExpirationSet)
  | userSet (op : Keyed.Op PubKey UserContractSet)
  | nextContractId (id : {id : ℕ // id ≠ 0})
  | service (op : Keyed.Op String Service)
  | serviceName (op : Keyed.Op ℕ String)

/-- The write to the table. -/
def TableWrite.onChain (s : ChainState) : TableWrite → ChainState
  | .provider op => { s with providers := op.apply (fun k => (toUpper k.1, k.2)) s.providers }
  | .contract op => { s with contracts := op.apply id s.contracts }
  | .expirationSet op => { s with expirationSets := op.apply id s.expirationSets }
  | .userSet op => { s with userSets := op.apply toUpper s.userSets }
  | .nextContractId id => { s with nextContractId := id }
  | .service op => { s with services := op.apply toLower s.services }
  | .serviceName op => { s with serviceIds := op.apply id s.serviceIds }

/-- The write to the store. -/
def TableWrite.onStore : TableWrite → Keyed.Op StoreKey StoredRecord
  | .provider op => op.map (fun k => .provider k.1 k.2) .provider
  | .contract op => op.map .contract .contract
  | .expirationSet op => op.map .expirationSet .expirationSet
  | .userSet op => op.map .userSet .userSet
  | .nextContractId id => .set .nextContractId (.nextContractId id)
  | .service op => op.map .serviceName .service
  | .serviceName op => op.map .serviceID .serviceName

/-- The records after a write. -/
theorem TableWrite.record_onChain (w : TableWrite) (s : ChainState) (k : StoreKey) :
    (w.onChain s).record k =
      if k.folded = w.onStore.key.folded then w.onStore.value else s.record k := by
  cases w with
  | provider op =>
    cases k with
    | provider pubKey service =>
      simp only [onChain, onStore, ChainState.record, Keyed.Op.map_lookup_apply, Keyed.Op.key_map,
        Keyed.Op.value_map, StoreKey.folded, StoreKey.provider.injEq, Prod.mk.injEq]
    | _ => exact (if_neg (by simp [onStore, StoreKey.folded])).symm
  | contract op =>
    cases k with
    | contract id' =>
      simp only [onChain, onStore, ChainState.record, Keyed.Op.map_lookup_apply, Keyed.Op.key_map,
        Keyed.Op.value_map, StoreKey.folded, StoreKey.contract.injEq, id]
    | _ => exact (if_neg (by simp [onStore, StoreKey.folded])).symm
  | expirationSet op =>
    cases k with
    | expirationSet height =>
      simp only [onChain, onStore, ChainState.record, Keyed.Op.map_lookup_apply, Keyed.Op.key_map,
        Keyed.Op.value_map, StoreKey.folded, StoreKey.expirationSet.injEq, id]
    | _ => exact (if_neg (by simp [onStore, StoreKey.folded])).symm
  | userSet op =>
    cases k with
    | userSet user =>
      simp only [onChain, onStore, ChainState.record, Keyed.Op.map_lookup_apply, Keyed.Op.key_map,
        Keyed.Op.value_map, StoreKey.folded, StoreKey.userSet.injEq]
    | _ => exact (if_neg (by simp [onStore, StoreKey.folded])).symm
  | nextContractId id =>
    cases k with
    | nextContractId =>
      show (if id.val = 0 then none else some id.val).map StoredRecord.nextContractId = _
      rw [if_neg id.property]
      exact (if_pos rfl).symm
    | _ => exact (if_neg (by simp [onStore, StoreKey.folded, Keyed.Op.key])).symm
  | service op =>
    cases k with
    | serviceName name =>
      simp only [onChain, onStore, ChainState.record, Keyed.Op.map_lookup_apply, Keyed.Op.key_map,
        Keyed.Op.value_map, StoreKey.folded, StoreKey.serviceName.injEq]
    | _ => exact (if_neg (by simp [onStore, StoreKey.folded])).symm
  | serviceName op =>
    cases k with
    | serviceID id' =>
      simp only [onChain, onStore, ChainState.record, Keyed.Op.map_lookup_apply, Keyed.Op.key_map,
        Keyed.Op.value_map, StoreKey.folded, StoreKey.serviceID.injEq, id]
    | _ => exact (if_neg (by simp [onStore, StoreKey.folded])).symm

/-- **A write** to a table and to the store. -/
theorem Holds.write (hlaw : codec.Lawful) (h : Holds codec raw s) (w : TableWrite) :
    Holds codec (w.onStore.apply (StoreKey.bytes codec) raw) (w.onChain s) :=
  h.apply hlaw w.onStore fun k => w.record_onChain s k

/-- **A run of writes.** -/
theorem Holds.writes (hlaw : codec.Lawful) (h : Holds codec raw s) (ws : List TableWrite) :
    Holds codec (Keyed.Op.applyAll (StoreKey.bytes codec) raw (ws.map TableWrite.onStore))
      (ws.foldl TableWrite.onChain s) := by
  induction ws generalizing raw s with
  | nil => exact h
  | cons w ws ih => exact ih (h.write hlaw w)

/-! What the functions of the keeper write. -/

/-- A record that is deleted when it is empty. -/
def putOrDelete {κ V : Type} (empty : Prop) [Decidable empty] (k : κ) (v : V) : Keyed.Op κ V :=
  if empty then .delete k else .set k v

theorem apply_putOrDelete {κ γ V : Type} [DecidableEq γ] {empty : Prop} [Decidable empty] {k : κ}
    {v : V} {name : κ → γ} {t : AList fun _ : γ => V} :
    (putOrDelete empty k v).apply name t =
      if empty then t.erase (name k) else t.insert (name k) v := by
  unfold putOrDelete
  by_cases he : empty
  · rw [if_pos he, if_pos he]
    rfl
  · rw [if_neg he, if_neg he]
    rfl

theorem setContract_writes {c : Contract} (h : setContract c s = .ok u s') :
    s' = TableWrite.onChain s (.contract (.set c.id c)) := by
  obtain ⟨-, rfl⟩ := setContract_ok.mp h
  rfl

theorem setContractExpirationSet_writes {set : ContractExpirationSet}
    (h : setContractExpirationSet set s = .ok u s') :
    s' = TableWrite.onChain s
      (.expirationSet (putOrDelete (set.contractIds = []) set.height set)) := by
  obtain ⟨-, hw⟩ := failIf_bind_ok.mp h
  obtain rfl := writing_ok.mp hw
  rw [TableWrite.onChain, apply_putOrDelete]
  rfl

theorem removeContractExpirationSet_writes {height : Int64}
    (h : removeContractExpirationSet height s = .ok u s') :
    s' = TableWrite.onChain s (.expirationSet (.delete height)) := by
  obtain rfl := writing_ok.mp h
  rfl

theorem setUserContractSet_writes {set : UserContractSet}
    (h : setUserContractSet set s = .ok u s') :
    s' = TableWrite.onChain s
      (.userSet (putOrDelete (set.contractSet.getD [] = []) set.user set)) := by
  obtain ⟨-, hw⟩ := failIf_bind_ok.mp h
  obtain rfl := writing_ok.mp hw
  rw [TableWrite.onChain, apply_putOrDelete]

theorem setProvider_writes {p : Provider} (h : setProvider p s = .ok u s') :
    s' = TableWrite.onChain s (.provider (putOrDelete (p.bond = 0) (p.pubKey, p.service) p)) := by
  obtain ⟨-, hw⟩ := failIf_bind_ok.mp h
  obtain rfl := writing_ok.mp hw
  rw [TableWrite.onChain, apply_putOrDelete]

theorem removeProvider_writes {pubKey : PubKey} {service : ℕ}
    (h : removeProvider pubKey service s = .ok u s') :
    s' = TableWrite.onChain s (.provider (.delete (pubKey, service))) := by
  obtain rfl := writing_ok.mp h
  rfl

theorem setService_writes {svc : Service} (h : setService svc s = .ok u s') :
    s' = [TableWrite.service (.set svc.name svc),
      .serviceName (.set svc.id (toLower svc.name))].foldl TableWrite.onChain s := by
  obtain ⟨-, h⟩ := failIf_bind_ok.mp h
  obtain ⟨-, hw⟩ := failIf_bind_ok.mp h
  obtain rfl := writing_ok.mp hw
  rfl

theorem getAndIncrementNextContractId_writes {id : ℕ}
    (h : getAndIncrementNextContractId s = .ok id s') :
    s' = TableWrite.onChain s (.nextContractId ⟨id + 1, Nat.succ_ne_zero id⟩) := by
  obtain ⟨rfl, rfl⟩ := getAndIncrementNextContractId_ok.mp h
  rfl

theorem removeFromUserContractSet_writes {user : PubKey} {id : ℕ}
    (h : removeFromUserContractSet user id s = .ok u s') :
    ∃ op, s' = TableWrite.onChain s (.userSet op) := by
  rw [removeFromUserContractSet, getUserContractSet, reading_bind, ofOption_bind_ok] at h
  obtain ⟨set, -, h⟩ := h
  by_cases hids : set.contractSet.getD [] = []
  · rw [if_pos hids] at h
    obtain rfl := writing_ok.mp h
    exact ⟨.delete user, rfl⟩
  · rw [if_neg hids] at h
    exact ⟨_, setUserContractSet_writes h⟩

/-- The entry of the index goes with a record that is there. -/
theorem removeServiceRecord_writes {name : String} (h : removeServiceRecord name s = .ok u s') :
    s' = (TableWrite.service (.delete name) ::
      (s.services.lookup (toLower name)).toList.map
        fun svc => .serviceName (.delete svc.id)).foldl TableWrite.onChain s := by
  obtain rfl := writing_ok.mp h
  cases s.services.lookup (toLower name) <;> rfl

/-- What one function of the keeper does to the state. -/
inductive KeeperStep (s s' : ChainState) : Prop where
  | setContract (c : Contract) (h : setContract c s = .ok () s')
  | setContractExpirationSet (set : ContractExpirationSet)
      (h : setContractExpirationSet set s = .ok () s')
  | removeContractExpirationSet (height : Int64)
      (h : removeContractExpirationSet height s = .ok () s')
  | getAndIncrementNextContractId (id : ℕ) (h : getAndIncrementNextContractId s = .ok id s')
  | setUserContractSet (set : UserContractSet) (h : setUserContractSet set s = .ok () s')
  | removeFromUserContractSet (user : PubKey) (id : ℕ)
      (h : removeFromUserContractSet user id s = .ok () s')
  | setProvider (p : Provider) (h : setProvider p s = .ok () s')
  | removeProvider (pubKey : PubKey) (service : ℕ) (h : removeProvider pubKey service s = .ok () s')
  | setService (svc : Service) (h : setService svc s = .ok () s')
  | removeService (name : String) (h : removeServiceRecord name s = .ok () s')

theorem one_write {w : TableWrite} (h : s' = w.onChain s) :
    ∃ ws : List TableWrite, s' = ws.foldl TableWrite.onChain s := ⟨[w], h⟩

theorem KeeperStep.writes (h : KeeperStep s s') :
    ∃ ws : List TableWrite, s' = ws.foldl TableWrite.onChain s := by
  cases h with
  | setContract c h => exact one_write (setContract_writes h)
  | setContractExpirationSet set h => exact one_write (setContractExpirationSet_writes h)
  | removeContractExpirationSet height h => exact one_write (removeContractExpirationSet_writes h)
  | getAndIncrementNextContractId id h => exact one_write (getAndIncrementNextContractId_writes h)
  | setUserContractSet set h => exact one_write (setUserContractSet_writes h)
  | removeFromUserContractSet user id h =>
    obtain ⟨op, hs⟩ := removeFromUserContractSet_writes h
    exact ⟨[.userSet op], hs⟩
  | setProvider p h => exact one_write (setProvider_writes h)
  | removeProvider pubKey service h => exact one_write (removeProvider_writes h)
  | setService svc h => exact ⟨_, setService_writes h⟩
  | removeService name h => exact ⟨_, removeServiceRecord_writes h⟩

/-- **A run of the keeper's functions**, on the tables and on the store they stand for. -/
theorem keeper_run_holds (hlaw : codec.Lawful) (h : Relation.ReflTransGen KeeperStep {} s) :
    ∃ ws : List TableWrite, s = ws.foldl TableWrite.onChain {} ∧
      Holds codec (Keyed.Op.applyAll (StoreKey.bytes codec) ∅ (ws.map TableWrite.onStore)) s := by
  have hwrites : ∃ ws : List TableWrite, s = ws.foldl TableWrite.onChain {} := by
    induction h with
    | refl => exact ⟨[], rfl⟩
    | tail _ hstep ih =>
      obtain ⟨ws, rfl⟩ := ih
      obtain ⟨ws', rfl⟩ := hstep.writes
      exact ⟨ws ++ ws', List.foldl_append.symm⟩
  obtain ⟨ws, rfl⟩ := hwrites
  exact ⟨ws, rfl, holds_empty.writes hlaw ws⟩

/-- **The iterators go through the tables**: what the store holds under the prefix of a kind are
the records of the chain's table. -/
theorem Holds.mem_iterator (h : Holds codec raw s) {x : String × RecordKind}
    (hx : x ∈ iteratedPrefixes) {e : Sigma fun _ : Bytes => StoredRecord} :
    e ∈ getIterator raw x.1 ↔
      ∃ k : StoreKey, k.kind = x.2 ∧ k.bytes codec = e.1 ∧ s.record k = some e.2 := by
  obtain ⟨t, ht, hrecord⟩ := h
  rw [(iteratesKind ht hx).2 e]
  have hchain : ∀ k : StoreKey, k.kind = x.2 → k.OfChain := by
    intro k hk
    have hkinds : ∀ x ∈ iteratedPrefixes,
        x.2 ∉ [RecordKind.version, .serviceSeedMarker, .updateParamsEmission] := by decide
    rw [StoreKey.OfChain, hk]
    exact hkinds x hx
  apply exists_congr
  intro k
  apply and_congr_right
  intro hk
  rw [hrecord k (hchain k hk)]

end Tables

end Arkeo
