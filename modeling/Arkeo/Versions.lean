import Arkeo.World

/-! # Versions of the validators

A validator announces the version it runs with `MsgSetVersion`, which is stored under a
key made of its address.  At the start of a block the keeper counts the versions of the
bonded validators (`getComputedVersion`), and the payout leaves out those that are behind
(`payees`).  The message stores under `ValAddress(msg.Creator)`, the bytes of the text
of the account, while both readers take the bytes the operator's address decodes to: no
announcement reaches them (`announced_version_unread`).
-/
namespace Arkeo

/-- The bech32 forms of an address: `AccAddress.String`, `ValAddress.String`, and
`ValidatorAddressCodec().StringToBytes`. -/
structure AddressCodec where
  accString : Bytes → String
  valString : Bytes → String
  valBytes : String → Option Bytes

/-! ## The store -/

/-- The versions by the last part of their keys, which `GetKey` writes in capitals; the
version of the store itself is under the empty one. -/
abbrev VersionStore := AList fun _ : String => Int64

namespace VersionStore

def getVersion (s : VersionStore) : Int64 := (s.lookup "").getD 1

def setVersion (value : Int64) (s : VersionStore) : VersionStore := s.insert "" value

def getVersionForAddress (codec : AddressCodec) (addr : Bytes) (s : VersionStore) : Int64 :=
  (s.lookup (toUpper (codec.valString addr))).getD 1

def setVersionForAddress (codec : AddressCodec) (addr : Bytes) (value : Int64) (s : VersionStore) :
    VersionStore :=
  s.insert (toUpper (codec.valString addr)) value

end VersionStore

/-! ## The message -/

structure MsgSetVersion where
  creator : String
  version : Int64
  deriving DecidableEq, Repr

/-- Why a version is refused; the last two give the version and the current one. -/
inductive VersionError where
  | invalidVersion
  | disabledHandler
  | cannotDowngrade (version current : Int64)
  | sameVersion (version current : Int64)
  deriving DecidableEq, Repr

/-- `cosmos.ValAddress(msg.Creator)`, a conversion of the text to its bytes. -/
def MsgSetVersion.valAddr (msg : MsgSetVersion) : Bytes := msg.creator.toUTF8.data.toList

def MsgSetVersion.validateBasic (msg : MsgSetVersion) : Except VersionError Unit :=
  if msg.version ≤ 0 then .error .invalidVersion else .ok ()

section
variable (codec : AddressCodec)

def setVersionValidate (msg : MsgSetVersion) (s : VersionStore) : Except VersionError Unit :=
  if fetchConfig .handlerSetVersion > 0 then .error .disabledHandler
  else
    let currentVersion := s.getVersionForAddress codec msg.valAddr
    if currentVersion > msg.version then .error (.cannotDowngrade msg.version currentVersion)
    else if currentVersion = msg.version then .error (.sameVersion msg.version currentVersion)
    else .ok ()

def setVersionHandle (msg : MsgSetVersion) (s : VersionStore) : VersionStore :=
  s.setVersionForAddress codec msg.valAddr msg.version

def msgSetVersion (msg : MsgSetVersion) (s : VersionStore) : Except VersionError VersionStore := do
  msg.validateBasic
  setVersionValidate codec msg s
  return setVersionHandle codec msg s

/-! ## The readers -/

/-- A validator of the staking module, by its operator's address. -/
structure Validator where
  operator : String
  bonded : Bool := true
  deriving DecidableEq, Repr

/-- `VersionConsensus`, in percent. -/
def versionConsensus : Int64 := 90

/-- The version of a validator as both readers look it up.  In `GetComputedVersion` an
address that does not decode is logged and then empty; `ValidatorPayout` panics on it. -/
def validatorVersion (val : Validator) (s : VersionStore) : Int64 :=
  s.getVersionForAddress codec ((codec.valBytes val.operator).getD [])

/-- The loop of `GetComputedVersion`: the first version that enough validators have. -/
def countVersions (min currentVersion : Int64) (s : VersionStore) :
    List Validator → (Int64 → Int64) → Int64
  | [], _ => currentVersion
  | val :: validators, versions =>
      if !val.bonded then countVersions min currentVersion s validators versions
      else
        let ver := validatorVersion codec val s
        let n := versions ver + 1
        if min ≤ n then ver
        else countVersions min currentVersion s validators (Function.update versions ver n)

/-- `KVStore.GetComputedVersion`; a validator that is alone decides with the version of
the software. -/
def getComputedVersion (swVersion : Int64) (validators : List Validator) (s : VersionStore) :
    Int64 :=
  if validators.length = 1 then swVersion
  else
    countVersions codec (Int64.ofNat validators.length * versionConsensus / 100) s.getVersion s
      validators fun _ => 0

/-- Whether a vote of the last commit counts: `BLOCK_ID_FLAG_ABSENT` and `_UNKNOWN` do
not. -/
structure Vote where
  signed : Bool
  /-- `ValidatorByConsAddr` of its address. -/
  validator : Option Validator
  deriving DecidableEq, Repr

/-- The validators that the loop of `ValidatorPayout` gives a share to: those that have
signed, are known and are not behind the current version; `none` where it panics. -/
def payees (s : VersionStore) : List Vote → Option (List Validator)
  | [] => some []
  | vote :: votes =>
      match vote.signed, vote.validator with
      | true, some val =>
          match codec.valBytes val.operator with
          | none => none
          | some _ =>
              if validatorVersion codec val s < s.getVersion then payees s votes
              else (payees s votes).map (val :: ·)
      | _, _ => payees s votes

/-! ## Runs -/

/-- A message, or the start of a block with the validators the staking module lists. -/
inductive VersionAction where
  | setVersion (msg : MsgSetVersion)
  | beginBlock (validators : List Validator)
  deriving DecidableEq, Repr

/-- The part of a block that concerns versions: `BeginBlock` stores the version that was
computed, and panics when the software is behind it. -/
def versionStep (swVersion : Int64) (s : VersionStore) : VersionAction → Option VersionStore
  | .setVersion msg =>
      match msgSetVersion codec msg s with
      | .ok s' => some s'
      | .error _ => some s
  | .beginBlock validators =>
      let ver := getComputedVersion codec swVersion validators s
      if ver > swVersion then none else some (s.setVersion ver)

end

/-! ## What an announcement does -/

/-- The bytes of an account: those of a hash, of 20 or of 32. -/
def IsAccount (a : Bytes) : Prop := a.length = 20 ∨ a.length = 32

instance (a : Bytes) : Decidable (IsAccount a) := inferInstanceAs (Decidable (_ ∨ _))

/-- What bech32 promises: addresses are told apart by their texts in any letter case, the
empty one has the empty text, and the text of an account has the prefix `arkeo1`, five
bits of the address a letter, and six letters of a checksum. -/
structure AddressCodec.Lawful (codec : AddressCodec) : Prop where
  injective : ∀ a b, toUpper (codec.valString a) = toUpper (codec.valString b) → a = b
  empty : codec.valString [] = ""
  length : ∀ a, IsAccount a →
    (codec.accString a).utf8ByteSize = 6 + (8 * a.length + 4) / 5 + 6

variable {codec : AddressCodec} {swVersion v : Int64} {s s' s₀ : VersionStore} {a b : Bytes}

/-- **A message, inverted.** -/
theorem msgSetVersion_ok {msg : MsgSetVersion} : msgSetVersion codec msg s = .ok s' ↔
    0 < msg.version ∧ s.getVersionForAddress codec msg.valAddr < msg.version ∧
      s' = s.setVersionForAddress codec msg.valAddr msg.version := by
  have hhandler : ¬fetchConfig .handlerSetVersion > 0 := by decide
  unfold msgSetVersion MsgSetVersion.validateBasic setVersionValidate
  rw [if_neg hhandler]
  by_cases hpos : msg.version ≤ 0
  · rw [if_pos hpos]
    constructor
    · intro h
      cases h
    · rintro ⟨hlt, -⟩
      exact absurd hlt (Int64.not_lt.mpr hpos)
  · rw [if_neg hpos]
    rw [Int64.not_le] at hpos
    by_cases hdown : s.getVersionForAddress codec msg.valAddr > msg.version
    · simp only [if_pos hdown]
      constructor
      · intro h
        cases h
      · rintro ⟨-, hlt, -⟩
        exact absurd (Int64.lt_trans hdown hlt) Int64.lt_irrefl
    · simp only [if_neg hdown]
      by_cases hsame : s.getVersionForAddress codec msg.valAddr = msg.version
      · simp only [if_pos hsame]
        constructor
        · intro h
          cases h
        · rintro ⟨-, hlt, -⟩
          exact absurd (hsame ▸ hlt) Int64.lt_irrefl
      · simp only [if_neg hsame]
        have hlt := Int64.lt_of_le_of_ne (Int64.not_lt.mp hdown) hsame
        constructor
        · intro h
          exact ⟨hpos, hlt, (Except.ok.inj h).symm⟩
        · rintro ⟨-, -, rfl⟩
          rfl

theorem getVersionForAddress_set_self (n : Int64) :
    (s.setVersionForAddress codec a n).getVersionForAddress codec a = n := by
  rw [VersionStore.getVersionForAddress, VersionStore.setVersionForAddress, AList.lookup_insert,
    Option.getD_some]

theorem getVersionForAddress_set_of_ne (hlaw : codec.Lawful) (hne : a ≠ b) (n : Int64) :
    (s.setVersionForAddress codec b n).getVersionForAddress codec a =
      s.getVersionForAddress codec a := by
  have hkey : toUpper (codec.valString a) ≠ toUpper (codec.valString b) :=
    fun h => hne (hlaw.injective a b h)
  rw [VersionStore.getVersionForAddress, VersionStore.setVersionForAddress,
    AList.lookup_insert_ne hkey, VersionStore.getVersionForAddress]

/-- The version of the store is no validator's. -/
theorem getVersionForAddress_setVersion (hlaw : codec.Lawful) (ha : a ≠ []) (n : Int64) :
    (s.setVersion n).getVersionForAddress codec a = s.getVersionForAddress codec a := by
  have hself : s.setVersion n = s.setVersionForAddress codec [] n := by
    rw [VersionStore.setVersion, VersionStore.setVersionForAddress, hlaw.empty]
    rfl
  rw [hself, getVersionForAddress_set_of_ne hlaw ha]

/-- **Everything a step can do** to the version under an address. -/
theorem versionStep_cases (hlaw : codec.Lawful) (ha : a ≠ []) {act : VersionAction}
    (h : versionStep codec swVersion s act = some s') :
    s'.getVersionForAddress codec a = s.getVersionForAddress codec a ∨
      ∃ msg, act = .setVersion msg ∧ msg.valAddr = a ∧ 0 < msg.version ∧
        s.getVersionForAddress codec a < msg.version ∧
        s'.getVersionForAddress codec a = msg.version := by
  cases act with
  | setVersion msg =>
    rw [versionStep] at h
    cases hm : msgSetVersion codec msg s with
    | error e =>
      rw [hm] at h
      obtain rfl := Option.some.inj h
      exact .inl rfl
    | ok t =>
      rw [hm] at h
      obtain rfl := Option.some.inj h
      obtain ⟨hpos, hlt, rfl⟩ := msgSetVersion_ok.mp hm
      by_cases hva : msg.valAddr = a
      · subst hva
        exact .inr ⟨msg, rfl, rfl, hpos, hlt, getVersionForAddress_set_self _⟩
      · exact .inl (getVersionForAddress_set_of_ne hlaw (Ne.symm hva) _)
  | beginBlock validators =>
    simp only [versionStep] at h
    split at h
    · cases h
    · obtain rfl := Option.some.inj h
      exact .inl (getVersionForAddress_setVersion hlaw ha _)

/-- The version under an address that no creator's text spells is kept. -/
theorem version_kept (hlaw : codec.Lawful) (ha : a ≠ []) {actions : List VersionAction}
    (hne : ∀ act ∈ actions, ∀ msg, act = .setVersion msg → msg.valAddr ≠ a)
    (hrun : Runs.run (versionStep codec swVersion) s₀ actions = some s) :
    s.getVersionForAddress codec a = s₀.getVersionForAddress codec a := by
  refine Runs.run_induct_of_guarded
    (P := fun t => t.getVersionForAddress codec a = s₀.getVersionForAddress codec a)
    ?_ rfl (Runs.guarded_of_forall hne s₀) hrun
  intro t act t' hkept hguard hstep
  rcases versionStep_cases hlaw ha hstep with hsame | ⟨msg, hact, hva, -⟩
  · exact hsame.trans hkept
  · exact absurd hva (hguard msg hact)

/-- Versions start at one and only rise. -/
theorem version_pos (hlaw : codec.Lawful) (ha : a ≠ []) {actions : List VersionAction}
    (hrun : Runs.run (versionStep codec swVersion) ∅ actions = some s) :
    1 ≤ s.getVersionForAddress codec a := by
  refine Runs.run_induct (P := fun t => 1 ≤ VersionStore.getVersionForAddress codec a t) ?_ ?_ hrun
  · intro t act t' hpos hstep
    rcases versionStep_cases hlaw ha hstep with hsame | ⟨msg, -, -, hmsg, -, hnew⟩
    · rw [hsame]
      exact hpos
    · rw [hnew]
      rw [Int64.lt_iff_toInt_lt] at hmsg
      rw [Int64.le_iff_toInt_le]
      have h0 : (0 : Int64).toInt = 0 := rfl
      have h1 : (1 : Int64).toInt = 1 := rfl
      omega
  · show (1 : Int64) ≤ 1
    exact Int64.le_refl 1

/-- The text of an account spells no account. -/
theorem AddressCodec.Lawful.valAddr_ne (hlaw : codec.Lawful) (ha : IsAccount a) (hb : IsAccount b)
    (version : Int64) : (MsgSetVersion.mk (codec.accString b) version).valAddr ≠ a := by
  intro h
  have hlength : a.length = (codec.accString b).utf8ByteSize := by
    rw [← h]
    rfl
  rw [hlaw.length b hb] at hlength
  unfold IsAccount at ha hb
  omega

/-- **No announcement is read.**  A validator whose operator is the account that announced
`v` is read with the version it had at the start, and on a chain that starts without any
this is never `v`. -/
theorem announced_version_unread (hlaw : codec.Lawful) {before after : List VersionAction}
    (hsigned : ∀ act ∈ before ++ .setVersion ⟨codec.accString a, v⟩ :: after,
      ∀ msg, act = .setVersion msg → ∃ b, IsAccount b ∧ msg.creator = codec.accString b)
    (ha : IsAccount a) {t t' : VersionStore}
    (hbefore : Runs.run (versionStep codec swVersion) s₀ before = some t)
    (haccepted : msgSetVersion codec ⟨codec.accString a, v⟩ t = .ok t')
    (hafter : Runs.run (versionStep codec swVersion) t' after = some s)
    {val : Validator} (hval : codec.valBytes val.operator = some a) :
    (validatorVersion codec val s = v ↔ validatorVersion codec val s₀ = v) ∧
      (s₀ = ∅ → validatorVersion codec val s ≠ v) := by
  have hne : a ≠ [] := by
    rintro rfl
    unfold IsAccount at ha
    simp at ha
  have hrun : Runs.run (versionStep codec swVersion) s₀
      (before ++ .setVersion ⟨codec.accString a, v⟩ :: after) = some s := by
    refine Runs.run_append.mpr ⟨t, hbefore, Runs.run_cons.mpr ⟨t', ?_, hafter⟩⟩
    rw [versionStep, haccepted]
  have hkept : s.getVersionForAddress codec a = s₀.getVersionForAddress codec a := by
    refine version_kept hlaw hne ?_ hrun
    intro act hact msg hmsg
    obtain ⟨b, hb, hcreator⟩ := hsigned act hact msg hmsg
    have hspelled := hlaw.valAddr_ne ha hb msg.version
    rw [← hcreator] at hspelled
    exact hspelled
  have hread : ∀ u, validatorVersion codec val u = u.getVersionForAddress codec a := by
    intro u
    rw [validatorVersion, hval, Option.getD_some]
  rw [hread, hread, hkept]
  refine ⟨Iff.rfl, ?_⟩
  rintro rfl heq
  -- the announcement was above the version under its own key, which is one at least
  obtain ⟨-, hlt, -⟩ := msgSetVersion_ok.mp haccepted
  have hcreator : (MsgSetVersion.mk (codec.accString a) v).valAddr ≠ [] := by
    intro hnil
    have hlength : (codec.accString a).utf8ByteSize = 0 := congrArg List.length hnil
    rw [hlaw.length a ha] at hlength
    omega
  have hone : v = 1 := heq.symm
  have hpos := version_pos hlaw hcreator hbefore
  rw [hone] at hlt
  exact absurd (Int64.lt_of_le_of_lt hpos hlt) Int64.lt_irrefl

/-! ## A concrete codec -/

/-- Bytes as characters of the private use area, which are in no bech32 text. -/
def spelled (b : Bytes) : String := String.ofList (b.map fun u => Char.ofNat (0xe000 + u.toNat))

/-- The texts of a table, and the bytes spelled out where it has none. -/
def knownText (table : List (Bytes × String)) (b : Bytes) : String :=
  ((table.find? fun d => d.1 = b).map Prod.snd).getD (spelled b)

theorem letter_toNat (u : UInt8) : (Char.ofNat (0xe000 + u.toNat)).toNat = 0xe000 + u.toNat := by
  have hu := u.toNat_lt
  rw [Char.toNat_ofNat, if_pos (.inr ⟨by omega, by omega⟩)]

/-- The character of a byte has no other case. -/
theorem toUpper_letter (u : UInt8) :
    LetterCase.toUpper (Char.ofNat (0xe000 + u.toNat)) = Char.ofNat (0xe000 + u.toNat) := by
  have hall : (LetterCase.upperRanges.all fun r => r.misses 0xe000 0xe0ff) = true := by
    decide +kernel
  have hu := u.toNat_lt
  refine LetterCase.toUpper_of_misses (by rw [letter_toNat]; omega) ?_
  rw [letter_toNat, List.all_eq_true]
  intro r hr
  exact LetterCase.CaseRange.misses_mono (by omega) (by omega) (List.all_eq_true.mp hall r hr)

theorem toUpper_spelled (b : Bytes) : toUpper (spelled b) = spelled b := by
  rw [toUpper, spelled, String.toList_ofList, List.map_map]
  congr 1
  exact List.map_congr_left fun u _ => toUpper_letter u

theorem spelled_injective : Function.Injective spelled := by
  intro a b h
  refine List.map_injective_iff.mpr ?_ (String.ofList_injective h)
  intro u u' hu
  have hnat := congrArg Char.toNat hu
  simp only [letter_toNat] at hnat
  exact UInt8.toNat_inj.mp (by omega)

/-- A text that begins with a letter of ASCII spells no bytes. -/
theorem spelled_ne {b : Bytes} {c : Char} {cs : List Char} (hc : c.toNat < 256) :
    spelled b ≠ String.ofList (c :: cs) := by
  intro h
  have hl := String.ofList_injective h
  cases b with
  | nil => cases hl
  | cons u us =>
    have hu := congrArg Char.toNat (List.cons.inj hl).1
    rw [letter_toNat] at hu
    omega

theorem knownText_injective {table : List (Bytes × String)}
    (hnodup : (table.map fun d => toUpper d.2).Nodup)
    (hascii : ∀ d ∈ table, ∃ c cs, toUpper d.2 = String.ofList (c :: cs) ∧ c.toNat < 256)
    {a b : Bytes} (h : toUpper (knownText table a) = toUpper (knownText table b)) : a = b := by
  unfold knownText at h
  cases hfa : table.find? fun d => d.1 = a with
  | none =>
    rw [hfa, Option.map_none, Option.getD_none, toUpper_spelled] at h
    cases hfb : table.find? fun d => d.1 = b with
    | none =>
      rw [hfb, Option.map_none, Option.getD_none, toUpper_spelled] at h
      exact spelled_injective h
    | some d =>
      rw [hfb, Option.map_some, Option.getD_some] at h
      obtain ⟨c, cs, hd, hc⟩ := hascii d (List.mem_of_find?_eq_some hfb)
      exact absurd (h.trans hd) (spelled_ne hc)
  | some d =>
    have hd := List.mem_of_find?_eq_some hfa
    rw [hfa, Option.map_some, Option.getD_some] at h
    cases hfb : table.find? fun d => d.1 = b with
    | none =>
      rw [hfb, Option.map_none, Option.getD_none, toUpper_spelled] at h
      obtain ⟨c, cs, hdc, hc⟩ := hascii d hd
      exact absurd (h.symm.trans hdc) (spelled_ne hc)
    | some d' =>
      rw [hfb, Option.map_some, Option.getD_some] at h
      have hsame : d = d' := List.inj_on_of_nodup_map hnodup hd (List.mem_of_find?_eq_some hfb) h
      have ha : d.1 = a := by simpa using List.find?_some hfa
      have hb : d'.1 = b := by simpa using List.find?_some hfb
      rw [← ha, ← hb, hsame]

namespace Sample

/-- The provider as an operator, and its account's text taken for an address. -/
def operators : List (Bytes × String) :=
  [(provider.addr, "arkeovaloper1fa0vscqxtq8l4pgy9veammtzyace8es4npaax0"),
   (provider.account.toUTF8.data.toList,
    "arkeovaloper1v9exket0x9nxzvrkwd3hz7r5wyuxcdrsvaunjan9v9kk6ar609skxefcv4engwp40qe8v6sfx6q45")]

def addressCodec : AddressCodec where
  accString b :=
    if b = provider.addr then provider.account
    else if b.length = 20 then String.ofList (List.replicate 44 '?')
    else String.ofList (List.replicate 64 '?')
  valString := knownText operators
  valBytes text := (operators.find? fun d => d.2 = text).map Prod.fst

theorem addressCodec_lawful : addressCodec.Lawful where
  injective a b h := by
    refine knownText_injective (by decide +kernel) ?_ h
    intro d hd
    obtain rfl | rfl : d = operators[0] ∨ d = operators[1] := by
      simpa [operators] using hd
    · exact ⟨'A', _, rfl, by decide⟩
    · exact ⟨'A', _, rfl, by decide⟩
  empty := rfl
  length b hb := by
    by_cases hp : b = provider.addr
    · subst hp
      decide +kernel
    · simp only [addressCodec, if_neg hp]
      rcases hb with hb | hb <;> rw [hb] <;> decide +kernel

/-- The validator of the provider. -/
def validator : Validator where
  operator := "arkeovaloper1fa0vscqxtq8l4pgy9veammtzyace8es4npaax0"

/-- It announces version 15. -/
def announcement : MsgSetVersion where
  creator := provider.account
  version := 15

end Sample

/-- The announcement is not read on a chain that starts without versions. -/
theorem announcement_unread : ∃ s, msgSetVersion Sample.addressCodec Sample.announcement ∅ = .ok s ∧
    validatorVersion Sample.addressCodec Sample.validator s ≠ 15 := by
  have hok : msgSetVersion Sample.addressCodec Sample.announcement ∅ =
      .ok (setVersionHandle Sample.addressCodec Sample.announcement ∅) :=
    msgSetVersion_ok.mpr ⟨by decide, by decide +kernel, rfl⟩
  refine ⟨_, hok, ?_⟩
  have hnone : ∀ t, Runs.run (versionStep Sample.addressCodec 15) t [] = some t := fun _ => rfl
  have haccount : IsAccount Sample.provider.addr := by decide
  have hval : Sample.addressCodec.valBytes Sample.validator.operator = some Sample.provider.addr := by
    decide +kernel
  have hunread := announced_version_unread Sample.addressCodec_lawful ?_ haccount (hnone ∅) hok
    (hnone _) hval
  · exact hunread.2 rfl
  · intro act hact msg hmsg
    rw [List.nil_append, List.mem_singleton] at hact
    obtain rfl := VersionAction.setVersion.inj (hmsg.symm.trans hact)
    exact ⟨Sample.provider.addr, by decide, rfl⟩

/-- **An accepted announcement of version 15 leaves the validator at version 1**: it does
not count for version 15, and were the chain at version 15 it would be paid nothing. -/
theorem announced_version_lost : ∃ s,
    msgSetVersion Sample.addressCodec Sample.announcement ∅ = .ok s ∧
    Sample.addressCodec.valBytes Sample.validator.operator = some Sample.provider.addr ∧
    Sample.announcement.creator = Sample.addressCodec.accString Sample.provider.addr ∧
    validatorVersion Sample.addressCodec Sample.validator s = 1 ∧
    getComputedVersion Sample.addressCodec 15 [Sample.validator, Sample.validator] s = 1 ∧
    payees Sample.addressCodec (s.setVersion 15)
      [{ signed := true, validator := some Sample.validator }] = some [] := by
  refine ⟨_, msgSetVersion_ok.mpr ⟨by decide, by decide +kernel, rfl⟩, ?_⟩
  decide +kernel

end Arkeo
