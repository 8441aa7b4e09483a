import Arkeo.Keeper

/-! # What the keeper functions do

One lemma for each keeper function: when it succeeds, and the store it then
leaves.  The lemmas are stated over two views of the index stores, the ids a
height lists (`listedAt`) and the ids of a user (`userIds`), so that what is
proved from them does not depend on how an empty set is kept.
-/
namespace Arkeo
open Exec

variable {s s' : ChainState} {u : Unit}

/-! ## Transfers -/

section Sent
variable (s) (src dst : Account) (coin : Coin) (p : Purpose)

@[simp] theorem ChainState.sent_contracts : (s.sent src dst coin p).contracts = s.contracts := by
  unfold sent; split <;> rfl

@[simp] theorem ChainState.sent_expirationSets :
    (s.sent src dst coin p).expirationSets = s.expirationSets := by
  unfold sent; split <;> rfl

@[simp] theorem ChainState.sent_userSets : (s.sent src dst coin p).userSets = s.userSets := by
  unfold sent; split <;> rfl

@[simp] theorem ChainState.sent_nextContractId :
    (s.sent src dst coin p).nextContractId = s.nextContractId := by
  unfold sent; split <;> rfl

@[simp] theorem ChainState.sent_providers : (s.sent src dst coin p).providers = s.providers := by
  unfold sent; split <;> rfl

@[simp] theorem ChainState.sent_services : (s.sent src dst coin p).services = s.services := by
  unfold sent; split <;> rfl

@[simp] theorem ChainState.sent_events : (s.sent src dst coin p).events = s.events := by
  unfold sent; split <;> rfl

theorem ChainState.sent_balance (a : Account) (d : String) :
    (s.sent src dst coin p).balance a d =
      s.balance a d - (if a = src ∧ d = coin.denom then coin.amount else 0) +
        if a = dst ∧ d = coin.denom then coin.amount else 0 := by
  unfold sent
  split
  · rename_i h
    simp [h]
  · exact Ledger.bal_move ..

theorem ChainState.sent_supply (d : String) :
    (s.sent src dst coin p).bank.supply d = s.bank.supply d := by
  unfold sent
  split
  · rfl
  · exact Ledger.supply_move ..

theorem ChainState.sent_nonneg (hs : s.bank.Nonneg) (h0 : 0 ≤ coin.amount)
    (hle : coin.amount ≤ s.balance src coin.denom) : (s.sent src dst coin p).bank.Nonneg := by
  unfold sent
  split
  · exact hs
  · exact hs.move h0 hle

theorem ChainState.sent_journal : (s.sent src dst coin p).journal =
    s.journal ++ if coin.amount = 0 then [] else [⟨src, dst, coin, p⟩] := by
  unfold sent
  split <;> simp

end Sent

@[simp] theorem sendCoin_ok {src dst : Account} {coin : Coin} {p : Purpose} :
    sendCoin src dst coin p s = .ok u s' ↔
      coin.amount ≤ s.balance src coin.denom ∧ s.sent src dst coin p = s' := by
  simp [sendCoin, bind_ok]

@[simp] theorem sendFromAccountToModule_ok {src : Bytes} {dst : ModuleName} {coin : Coin}
    {p : Purpose} : sendFromAccountToModule src dst coin p s = .ok u s' ↔
      coin.amount ≤ s.balance (.user src) coin.denom ∧
        s.sent (.user src) (.module dst) coin p = s' :=
  sendCoin_ok

@[simp] theorem sendFromModuleToAccount_ok {src : ModuleName} {dst : Bytes} {coin : Coin}
    {p : Purpose} : sendFromModuleToAccount src dst coin p s = .ok u s' ↔
      coin.amount ≤ s.balance (.module src) coin.denom ∧
        s.sent (.module src) (.user dst) coin p = s' :=
  sendCoin_ok

@[simp] theorem sendFromModuleToModule_ok {src dst : ModuleName} {coin : Coin} {p : Purpose} :
    sendFromModuleToModule src dst coin p s = .ok u s' ↔
      coin.amount ≤ s.balance (.module src) coin.denom ∧
        s.sent (.module src) (.module dst) coin p = s' :=
  sendCoin_ok

/-! ## Integers and coins -/

@[simp] theorem checked_ok {x y : ℤ} : checked x s = .ok y s' ↔
    x.natAbs < 2 ^ 256 ∧ x = y ∧ s = s' := by
  rw [checked, failIf_bind_ok, pure_ok, decide_eq_false_iff_not, not_le]

@[simp] theorem newCoin_ok {denom : String} {amount : ℤ} {coin : Coin} :
    newCoin denom amount s = .ok coin s' ↔
      (validateDenom denom = true ∧ 0 ≤ amount) ∧ ⟨denom, amount⟩ = coin ∧ s = s' := by
  rw [newCoin, failIf_bind_ok, pure_ok]
  simp [Coin.valid]

@[simp] theorem toInt64_ok {x : ℤ} {y : Int64} : toInt64 x s = .ok y s' ↔
    (-2 ^ 63 ≤ x ∧ x < 2 ^ 63) ∧ Int64.ofInt x = y ∧ s = s' := by
  rw [toInt64, failIf_bind_ok, pure_ok]
  simp

/-! ## Events -/

@[simp] theorem emit_ok {ctx : Context} {e : Event} : emit ctx e s = .ok u s' ↔
    { s with events := s.events ++ [(ctx.blockHeight, e)] } = s' :=
  writing_ok

/-! ## Contracts and expiration sets -/

/-- The ids listed for settlement at a height. -/
def ChainState.listedAt (s : ChainState) (t : Int64) : List ℕ :=
  ((s.expirationSets.lookup t).map ContractExpirationSet.contractIds).getD []

/-- Every expiration set is stored under its own height. -/
def ChainState.SetHeights (s : ChainState) : Prop :=
  ∀ t set, s.expirationSets.lookup t = some set → set.height = t

@[simp] theorem getContract_ok {id : ℕ} {c : Contract} :
    getContract id s = .ok c s' ↔ (s.contracts.lookup id).getD {} = c ∧ s = s' :=
  reading_ok

@[simp] theorem setContract_ok {c : Contract} : setContract c s = .ok u s' ↔
    (c.provider ≠ "" ∧ c.client ≠ "") ∧
      { s with contracts := s.contracts.insert c.id c } = s' := by
  simp [setContract, bind_ok]

@[simp] theorem getContractExpirationSet_ok {t : Int64} {set : ContractExpirationSet} :
    getContractExpirationSet t s = .ok set s' ↔
      (s.expirationSets.lookup t).getD ⟨t, []⟩ = set ∧ s = s' :=
  reading_ok

@[simp] theorem removeContractExpirationSet_ok {t : Int64} :
    removeContractExpirationSet t s = .ok u s' ↔
      { s with expirationSets := s.expirationSets.erase t } = s' :=
  writing_ok

/-- The store with an id appended to the ids listed at a height. -/
def ChainState.list (s : ChainState) (t : Int64) (id : ℕ) : ChainState :=
  { s with expirationSets := s.expirationSets.insert t ⟨t, s.listedAt t ++ [id]⟩ }

/-- Reading the set of a height and writing it back with one id more. -/
theorem appendExpirationSet_ok (hs : s.SetHeights) {t : Int64} {id : ℕ} :
    setContractExpirationSet
        (((s.expirationSets.lookup t).getD ⟨t, []⟩).append id) s = .ok u s' ↔
      0 < t ∧ s.list t id = s' := by
  have hrec : ((s.expirationSets.lookup t).getD ⟨t, []⟩).append id =
      ⟨t, s.listedAt t ++ [id]⟩ := by
    unfold ContractExpirationSet.append ChainState.listedAt
    cases h : s.expirationSets.lookup t with
    | none => rfl
    | some set =>
      have ht := hs t set h
      simp [ht]
  rw [hrec]
  simp [setContractExpirationSet, bind_ok, ChainState.list]

theorem ChainState.listedAt_list (t t' : Int64) (id : ℕ) :
    (s.list t id).listedAt t' = if t' = t then s.listedAt t ++ [id] else s.listedAt t' := by
  unfold list listedAt
  by_cases h : t' = t
  · subst h
    simp [AList.lookup_insert]
  · simp [AList.lookup_insert_ne h, h]

theorem ChainState.SetHeights.list (hs : s.SetHeights) (t : Int64) (id : ℕ) :
    (s.list t id).SetHeights := by
  intro t' set h
  by_cases ht : t' = t
  · subst ht
    rw [ChainState.list, AList.lookup_insert] at h
    cases h
    rfl
  · rw [ChainState.list, AList.lookup_insert_ne ht] at h
    exact hs t' set h

/-- The store without the set of a height. -/
def ChainState.unlist (s : ChainState) (t : Int64) : ChainState :=
  { s with expirationSets := s.expirationSets.erase t }

theorem ChainState.listedAt_unlist (t t' : Int64) :
    (s.unlist t).listedAt t' = if t' = t then [] else s.listedAt t' := by
  unfold unlist listedAt
  by_cases h : t' = t
  · subst h
    simp
  · simp [AList.lookup_erase_ne h, h]

theorem ChainState.SetHeights.unlist (hs : s.SetHeights) (t : Int64) : (s.unlist t).SetHeights := by
  intro t' set h
  by_cases ht : t' = t
  · subst ht
    rw [ChainState.unlist, AList.lookup_erase] at h
    cases h
  · rw [ChainState.unlist, AList.lookup_erase_ne ht] at h
    exact hs t' set h

@[simp] theorem getAndIncrementNextContractId_ok {id : ℕ} :
    getAndIncrementNextContractId s = .ok id s' ↔
      s.getNextContractId = id ∧ { s with nextContractId := s.getNextContractId + 1 } = s' := by
  simp only [getAndIncrementNextContractId, bind_ok, reading_ok, writing_ok, pure_ok]
  constructor
  · rintro ⟨_, _, ⟨rfl, rfl⟩, _, _, rfl, rfl, rfl⟩
    exact ⟨rfl, rfl⟩
  · rintro ⟨rfl, rfl⟩
    exact ⟨_, _, ⟨rfl, rfl⟩, (), _, rfl, rfl, rfl⟩

/-! ## User sets -/

/-- The ids in the set of a user, given by the key of the set. -/
def ChainState.userIds (s : ChainState) (key : String) : List ℕ :=
  ((s.userSets.lookup key).bind UserContractSet.contractSet).getD []

/-- Every user set is stored under the upper-cased key of its user. -/
def ChainState.SetUsers (s : ChainState) : Prop :=
  ∀ key set, s.userSets.lookup key = some set → toUpper set.user = key

@[simp] theorem getUserContractSet_ok {user : PubKey} {set : UserContractSet} :
    getUserContractSet user s = .ok set s' ↔
      (s.userSets.lookup (toUpper user)).getD ⟨user, none⟩ = set ∧ s = s' :=
  reading_ok

theorem ChainState.userIds_getD (s : ChainState) (user : PubKey) (key : String) :
    ((s.userSets.lookup key).getD ⟨user, none⟩).contractSet.getD [] = s.userIds key := by
  unfold userIds
  cases s.userSets.lookup key <;> rfl

/-- The store with these ids in the set of a user. -/
def ChainState.putUserIds (s : ChainState) (user : PubKey) (ids : List ℕ) : ChainState :=
  { s with
    userSets :=
      if ids = [] then s.userSets.erase (toUpper user)
      else s.userSets.insert (toUpper user)
        ⟨((s.userSets.lookup (toUpper user)).getD ⟨user, none⟩).user, some ids⟩ }

theorem toUpper_eq_empty {t : String} : toUpper t = "" ↔ t = "" := by
  constructor
  · intro h
    have hl : (toUpper t).toList = [] := by rw [h]; rfl
    rw [toUpper, String.toList_ofList, List.map_eq_nil_iff] at hl
    exact String.toList_eq_nil_iff.mp hl
  · rintro rfl
    rfl

@[simp] theorem toLower_toLower (t : String) : toLower (toLower t) = toLower t := by
  unfold toLower
  rw [String.toList_ofList, List.map_map]
  congr 1
  exact List.map_congr_left fun c _ => LetterCase.toLower_toLower c

/-- The stored spelling of a user's key is a spelling of that key. -/
theorem ChainState.SetUsers.user_eq (hs : s.SetUsers) (user : PubKey) :
    toUpper ((s.userSets.lookup (toUpper user)).getD ⟨user, none⟩).user = toUpper user := by
  cases h : s.userSets.lookup (toUpper user) with
  | none => rfl
  | some set => exact hs _ set h

theorem ChainState.SetUsers.user_ne (hs : s.SetUsers) {user : PubKey} (hu : user ≠ "") :
    ((s.userSets.lookup (toUpper user)).getD ⟨user, none⟩).user ≠ "" := by
  intro h
  have he := hs.user_eq user
  rw [h] at he
  exact hu (toUpper_eq_empty.mp he.symm)

/-- Reading a user's set and writing it back with other ids. -/
theorem setUserContractSet_ok (hs : s.SetUsers) {user : PubKey} (hu : user ≠ "") {ids : List ℕ} :
    setUserContractSet
        { (s.userSets.lookup (toUpper user)).getD ⟨user, none⟩ with contractSet := some ids } s =
          .ok u s' ↔ s.putUserIds user ids = s' := by
  simp [setUserContractSet, bind_ok, hs.user_ne hu, hs.user_eq, ChainState.putUserIds]

theorem ChainState.userIds_putUserIds (user : PubKey) (ids : List ℕ) (key : String) :
    (s.putUserIds user ids).userIds key = if key = toUpper user then ids else s.userIds key := by
  unfold putUserIds userIds
  by_cases hk : key = toUpper user
  · subst hk
    by_cases hi : ids = []
    · simp [hi]
    · simp [hi, AList.lookup_insert]
  · by_cases hi : ids = []
    · simp [hi, hk, AList.lookup_erase_ne hk]
    · simp [hi, hk, AList.lookup_insert_ne hk]

theorem ChainState.SetUsers.putUserIds (hs : s.SetUsers) (user : PubKey) (ids : List ℕ) :
    (s.putUserIds user ids).SetUsers := by
  intro key set h
  by_cases hk : key = toUpper user
  · subst hk
    by_cases hi : ids = []
    · simp [ChainState.putUserIds, hi] at h
    · simp only [ChainState.putUserIds, hi, if_false, AList.lookup_insert] at h
      cases h
      exact hs.user_eq user
  · by_cases hi : ids = []
    · simp only [ChainState.putUserIds, hi, if_true, AList.lookup_erase_ne hk] at h
      exact hs key set h
    · simp only [ChainState.putUserIds, hi, if_false, AList.lookup_insert_ne hk] at h
      exact hs key set h

/-- The first occurrence of the id goes; there has to be one. -/
theorem removeFromUserContractSet_ok (hs : s.SetUsers) {user : PubKey} (hu : user ≠ "") {id : ℕ} :
    removeFromUserContractSet user id s = .ok u s' ↔
      id ∈ s.userIds (toUpper user) ∧
        s.putUserIds user ((s.userIds (toUpper user)).erase id) = s' := by
  rw [removeFromUserContractSet, getUserContractSet, reading_bind, ofOption_bind_ok]
  cases h : s.userSets.lookup (toUpper user) with
  | none => simp [ChainState.userIds, h, UserContractSet.removeContractFromSet]
  | some set =>
    have hup := hs _ set h
    have hne : set.user ≠ "" := by
      have := hs.user_ne hu
      rwa [h] at this
    obtain ⟨owner, ids⟩ := set
    cases ids with
    | none => simp [ChainState.userIds, h, UserContractSet.removeContractFromSet]
    | some ids =>
      by_cases hid : id ∈ ids
      · by_cases he : ids.erase id = []
        · simp [ChainState.userIds, h, UserContractSet.removeContractFromSet, hid, he,
            ChainState.putUserIds]
        · simp at hup hne
          simp [ChainState.userIds, h, UserContractSet.removeContractFromSet, hid, he,
            ChainState.putUserIds, setUserContractSet, bind_ok, hup, hne]
      · simp [ChainState.userIds, h, UserContractSet.removeContractFromSet, hid]

theorem removeFromUserContractSet_error {user : PubKey} {id : ℕ}
    (h : id ∉ s.userIds (toUpper user)) :
    removeFromUserContractSet user id s = .error (.err .plain) s := by
  rw [removeFromUserContractSet, getUserContractSet, reading_bind]
  refine bind_error.mpr (.inl (ofOption_error.mpr ⟨?_, rfl, rfl⟩))
  unfold ChainState.userIds at h
  unfold UserContractSet.removeContractFromSet
  cases hl : s.userSets.lookup (toUpper user) with
  | none => rfl
  | some set =>
    rw [hl] at h
    obtain ⟨owner, ids⟩ := set
    cases ids with
    | none => rfl
    | some ids => exact if_neg h

end Arkeo
