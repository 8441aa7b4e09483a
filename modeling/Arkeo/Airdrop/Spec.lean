import Arkeo.Airdrop.World

/-! # What the operations of the claim module do to the amounts

Writing a record sets its three amounts and no others.  A payment for an action
(`PaysOut`) pays no more than the amount there is and wipes it out; handing a record
over (`HandsOver`) adds no more to the receiving record than it takes from the other.
Every message and hook is one of the two, or the one after the other.
-/
namespace Arkeo.Airdrop
open Exec

variable {env : Env} {ctx : Context} {s s' : Store}

/-! ## Records -/

/-- The store after a record was written. -/
def Store.put (s : Store) (r : ClaimRecord) : Store :=
  { s with records := s.records.insert (keyOf r.chain r.address) r.stored }

theorem setClaimRecord_ok {r : ClaimRecord} {u : Unit} :
    setClaimRecord env r s = .ok u s' ↔
      env.isValidAddress r.address r.chain = true ∧ s.put r = s' := by
  unfold setClaimRecord
  rw [failIf_bind_ok, writing_ok]
  simp [Store.put]

@[simp] theorem Coin.value_stored (c : Coin) : c.stored.value = c.value := rfl

@[simp] theorem ClaimRecord.value_stored (r : ClaimRecord) (a : Action) :
    (r.stored.amount a).value = (r.amount a).value := by
  cases a <;> rfl

theorem Store.amountAt_put (s : Store) (r : ClaimRecord) (k : Key) (a : Action) :
    (s.put r).amountAt k a =
      if k = keyOf r.chain r.address then (r.amount a).value else s.amountAt k a := by
  unfold amountAt put
  by_cases hk : k = keyOf r.chain r.address
  · rw [if_pos hk, hk]
    simp only [AList.lookup_insert, Option.elim_some, ClaimRecord.value_stored]
  · rw [if_neg hk]
    simp only [AList.lookup_insert_ne hk]

/-- Every record is stored under its own key, has a valid address and no negative
amounts. -/
def Store.Sound (env : Env) (s : Store) : Prop :=
  ∀ k r, s.records.lookup k = some r → keyOf r.chain r.address = k ∧
    env.isValidAddress r.address r.chain = true ∧ ∀ a, 0 ≤ (r.amount a).value

theorem Store.Sound.put (h : s.Sound env) {r : ClaimRecord}
    (hv : env.isValidAddress r.address r.chain = true) (hn : ∀ a, 0 ≤ (r.amount a).value) :
    (s.put r).Sound env := by
  intro k q hl
  unfold Store.put at hl
  by_cases hk : k = keyOf r.chain r.address
  · rw [hk, AList.lookup_insert] at hl
    cases hl
    refine ⟨hk.symm, hv, ?_⟩
    intro a
    rw [ClaimRecord.value_stored]
    exact hn a
  · rw [AList.lookup_insert_ne hk] at hl
    exact h k q hl

theorem Store.Sound.amountAt_nonneg (h : s.Sound env) (k : Key) (a : Action) :
    0 ≤ s.amountAt k a := by
  unfold amountAt
  cases hl : s.records.lookup k with
  | none => exact le_rfl
  | some r => exact (h k r hl).2.2 a

/-- The records of the genesis are sound. -/
theorem initGenesis_sound {bank : Ledger Holder String} {records : List ClaimRecord}
    (hn : ∀ r ∈ records, ∀ a, 0 ≤ (r.amount a).value)
    (h : initGenesis env bank records = some s) : s.Sound env ∧ s.payments = [] := by
  obtain ⟨u, hrun⟩ := committed_some.mp h
  -- the records still to come have no negative amounts, and what is written is sound
  let P : List ClaimRecord → Store → Prop := fun l t =>
    (∀ r ∈ l, ∀ a, 0 ≤ (r.amount a).value) ∧ t.Sound env ∧ t.payments = []
  have hinit : P records { bank := bank } := by
    refine ⟨hn, ?_, rfl⟩
    intro _ _ hl
    cases hl
  have hbody : ∀ r l t t', P (r :: l) t → setClaimRecord env r t = .ok () t' → P l t' := by
    rintro r l t t' ⟨hr, ht, hpay⟩ hset
    obtain ⟨hv, rfl⟩ := setClaimRecord_ok.mp hset
    obtain ⟨hr, hl⟩ := List.forall_mem_cons.mp hr
    exact ⟨hl, ht.put hv hr, hpay⟩
  exact (forEach_induct hbody hinit hrun).2

/-! ## Reading -/

theorem value_getClaimRecord (address : String) (chain : Chain) (s : Store) (a : Action) :
    ((getClaimRecord address chain s).amount a).value = s.amountAt (keyOf chain address) a := by
  unfold getClaimRecord Store.amountAt
  cases s.records.lookup (keyOf chain address) with
  | none => cases a <;> rfl
  | some r => rfl

/-- A record that is not empty is there, under its own key. -/
theorem Store.Sound.of_not_isEmpty (h : s.Sound env) {address : String} {chain : Chain}
    (he : (getClaimRecord address chain s).isEmpty = false) :
    keyOf (getClaimRecord address chain s).chain (getClaimRecord address chain s).address =
      keyOf chain address ∧
    env.isValidAddress (getClaimRecord address chain s).address
      (getClaimRecord address chain s).chain = true := by
  unfold getClaimRecord at he ⊢
  cases hl : s.records.lookup (keyOf chain address) with
  | none =>
    rw [hl] at he
    cases he
  | some r =>
    obtain ⟨hk, hv, -⟩ := h _ r hl
    exact ⟨hk, hv⟩

/-! ## The amount claimable -/

/-- The durations do not add up to less than 64 bits can hold. -/
def Params.NoUnderflow (p : Params) : Prop :=
  -2 ^ 63 ≤ p.durationUntilDecay.toInt + p.durationOfDecay.toInt

instance (p : Params) : Decidable p.NoUnderflow := by
  unfold Params.NoUnderflow
  infer_instance

theorem newCoin_value {denom : String} {n : ℤ} {coin : Coin} (h : newCoin denom n = some coin) :
    coin.value = n ∧ 0 ≤ n := by
  unfold newCoin at h
  split at h
  · rename_i hv
    obtain rfl := Option.some.inj h
    refine ⟨rfl, ?_⟩
    simpa [Coin.isValid] using (Bool.and_eq_true_iff.mp hv).2
  · cases h

/-- A decay time between none and all of the decay leaves between all and none of the
amount. -/
theorem decayed_le {initial coin : Coin} {t d : Int64} (ht : 0 ≤ t.toInt) (htd : t.toInt ≤ d.toInt)
    (hn : 0 ≤ initial.value) (h : decayed initial t d = some coin) :
    0 ≤ coin.value ∧ coin.value ≤ initial.value := by
  unfold decayed at h
  simp only [Option.bind_eq_bind, Option.bind_eq_some_iff] at h
  obtain ⟨q, hq, c, hc, x, hx, n, hamount, h⟩ := h
  obtain ⟨hc0, hc1⟩ := LegacyDec.sub_quoInt64_mem ht htd hq hc
  obtain rfl := LegacyDec.mul_ofInt hc0 (by decide) hx
  have hvalue : initial.value = n := by rw [Coin.value, hamount, Option.getD_some]
  rw [hvalue] at hn ⊢
  obtain ⟨hr0, hr1⟩ := LegacyDec.roundInt_mem (n := 10000) (x := c * 10000)
    (Int.mul_nonneg hc0 (by decide))
    (by rw [mul_comm 10000]; exact Int.mul_le_mul_of_nonneg_right hc1 (by decide))
  split at h
  · obtain ⟨hv, hnn⟩ := newCoin_value h
    have hprod : 0 ≤ n * LegacyDec.roundInt (c * 10000) := Int.mul_nonneg hn hr0
    rw [Int.tdiv_eq_ediv_of_nonneg hprod] at hv hnn
    refine ⟨hv ▸ hnn, ?_⟩
    rw [hv]
    apply Int.ediv_le_of_le_mul (by decide)
    exact Int.mul_le_mul_of_nonneg_left hr1 hn
  · cases h

theorem timeSub_nonneg {t u : ℤ} (h : u ≤ t) : 0 ≤ (timeSub t u).toInt := by
  unfold timeSub
  rw [Int64.toInt_ofInt, Int.bmod_eq_of_le]
  · omega
  · simp only [Int64.size]
    omega
  · simp only [Int64.size]
    omega

/-- **No more than the amount is claimable.** -/
theorem claimableAmount_le {r : ClaimRecord} {a : Action} {coin : Coin}
    (hp : ctx.params.NoUnderflow) (hn : 0 ≤ (r.amount a).value)
    (h : claimableAmount ctx r a = .ok coin) :
    0 ≤ coin.value ∧ coin.value ≤ (r.amount a).value := by
  unfold claimableAmount at h
  simp only at h
  split at h
  · cases h
    exact ⟨le_rfl, hn⟩
  rename_i hstart
  split at h
  · cases h
    exact ⟨hn, le_rfl⟩
  rename_i hearly
  split at h
  · cases h
  rename_i hend
  have helapsed : 0 ≤ (timeSub ctx.blockTime ctx.params.airdropStartTime).toInt := by
    apply timeSub_nonneg
    simp only [Bool.or_eq_true, decide_eq_true_eq, not_or] at hstart
    omega
  generalize timeSub ctx.blockTime ctx.params.airdropStartTime = elapsed at *
  rw [Int64.not_le, Int64.lt_iff_toInt_lt] at hearly
  rw [Int64.not_lt, Int64.le_iff_toInt_le, Int64.toInt_add] at hend
  have hu := ctx.params.durationUntilDecay.le_toInt
  have hd := ctx.params.durationOfDecay.toInt_lt
  have he := elapsed.toInt_lt
  unfold Params.NoUnderflow at hp
  -- the sum of the durations does not wrap around: upwards it would be negative
  have hsum : ctx.params.durationUntilDecay.toInt + ctx.params.durationOfDecay.toInt < 2 ^ 63 := by
    by_contra hover
    have hu' := ctx.params.durationUntilDecay.toInt_lt
    rw [Int.bmod_def] at hend
    split at hend <;> omega
  rw [Int.bmod_eq_of_le (by omega) (by omega)] at hend
  have hdecay : (elapsed - ctx.params.durationUntilDecay).toInt =
      elapsed.toInt - ctx.params.durationUntilDecay.toInt := by
    rw [Int64.toInt_sub]
    exact Int.bmod_eq_of_le (by omega) (by omega)
  split at h
  · rename_i coin' hcoin
    cases h
    exact decayed_le (by omega) (by omega) hn hcoin
  · cases h

/-! ## Payments -/

/-- The store after the bank has sent a payment. -/
def Store.sent (s : Store) (account : Bytes) (coin : Coin) (k : Key) (a : Action) : Store :=
  { s with
    bank := s.bank.move .module (.user account) coin.denom coin.value
    payments := s.payments ++ [⟨k, a, account, coin⟩] }

theorem sendCoins_cases (env : Env) (account : Bytes) (coin : Coin) (k : Key) (a : Action)
    (s : Store) :
    (∃ e, sendCoinsFromModuleToAccount env account coin k a s = .error e s) ∨
      sendCoinsFromModuleToAccount env account coin k a s = .ok () (s.sent account coin k a) := by
  unfold sendCoinsFromModuleToAccount
  rcases (readOnly_failIf (!coin.isValid) (.panic : Fault Error)).bind_cases _ s with
    ⟨-, h⟩ | ⟨e, h⟩
  · rw [h]
    rcases (readOnly_failIf (env.blockedAddr account) (.err .unauthorized : Fault Error)).bind_cases
      _ s with ⟨-, h⟩ | ⟨e, h⟩
    · rw [h, reading_bind]
      rcases (readOnly_failIf (decide (s.bank.bal .module coin.denom < coin.value))
        (.err .insufficientFunds : Fault Error)).bind_cases _ s with ⟨-, h⟩ | ⟨e, h⟩
      · rw [h]
        exact .inr rfl
      · exact .inl ⟨e, h⟩
    · exact .inl ⟨e, h⟩
  · exact .inl ⟨e, h⟩

/-- A payment for an action: no more than there is, and then there is nothing. -/
structure PaysOut (env : Env) (k : Key) (a : Action) (s s' : Store) : Prop where
  sound : s'.Sound env
  payment : ∃ pay, s'.payments = s.payments ++ [pay] ∧ pay.key = k ∧ pay.action = a ∧
    pay.coin.value ≤ s.amountAt k a
  gone : s'.amountAt k a = 0
  others : ∀ k' a', (k', a') ≠ (k, a) → s'.amountAt k' a' = s.amountAt k' a'

theorem readOnly_getClaimable (ctx : Context) (address : String) (a : Action) (chain : Chain) :
    ReadOnly (getClaimableAmountForAction ctx address a chain) :=
  (readOnly_reading _).bind fun _ => readOnly_fromExcept _

@[simp] theorem ClaimRecord.value_setAmount_self (r : ClaimRecord) (a : Action) (c : Coin) :
    ((r.setAmount a c).amount a).value = c.value := by
  cases a <;> rfl

theorem ClaimRecord.value_setAmount_of_ne (r : ClaimRecord) {a a' : Action} (c : Coin)
    (h : a' ≠ a) : ((r.setAmount a c).amount a').value = (r.amount a').value := by
  cases a <;> cases a' <;> first | rfl | exact absurd rfl h

theorem ClaimRecord.setAmount_address (r : ClaimRecord) (a : Action) (c : Coin) :
    (r.setAmount a c).address = r.address := by
  cases a <;> rfl

theorem ClaimRecord.setAmount_chain (r : ClaimRecord) (a : Action) (c : Coin) :
    (r.setAmount a c).chain = r.chain := by
  cases a <;> rfl

/-- **What `ClaimCoinsForAction` does**: nothing, or a payment.  Since a stored address
is valid, the payment and the end of the amount come together. -/
theorem claimCoinsForAction_cases (hs : s.Sound env) (hp : ctx.params.NoUnderflow)
    (address : String) (a : Action) :
    finalStore (claimCoinsForAction env ctx address a s) = s ∨
      ∃ coin s', claimCoinsForAction env ctx address a s = .ok coin s' ∧
        PaysOut env (keyOf .arkeo address) a s s' := by
  unfold claimCoinsForAction
  rcases (readOnly_getClaimable ctx address a .arkeo).bind_outcome _ s with
    ⟨claimable, hclaim, h⟩ | ⟨e, -, h⟩
  swap
  · rw [h]
    exact .inl rfl
  rw [h]
  split
  · exact .inl rfl
  rename_i hpos
  rw [reading_bind]
  rcases (readOnly_ofOption (env.accAddressFromBech32 address)
    (.err .invalidAddress : Fault Error)).bind_outcome _ s with ⟨account, -, h⟩ | ⟨e, -, h⟩
  swap
  · rw [h]
    exact .inl rfl
  rw [h]
  have hamount : claimableAmount ctx (getClaimRecord address .arkeo s) a = .ok claimable := by
    obtain ⟨_, _, hr, hx⟩ := bind_ok.mp hclaim
    obtain ⟨rfl, rfl⟩ := reading_ok.mp hr
    exact (fromExcept_ok.mp hx).1
  -- the record is there: an empty one is worth nothing
  have hne : (getClaimRecord address .arkeo s).isEmpty = false := by
    by_contra he
    rw [Bool.not_eq_false] at he
    unfold claimableAmount at hamount
    simp only [he, Bool.true_or, if_true] at hamount
    cases hamount
    simp [Coin.isNil] at hpos
  obtain ⟨hkey, hvalid⟩ := hs.of_not_isEmpty hne
  have hvalue : ∀ a', ((getClaimRecord address .arkeo s).amount a').value =
      s.amountAt (keyOf .arkeo address) a' := value_getClaimRecord address .arkeo s
  have hle := (claimableAmount_le hp (by rw [hvalue]; exact hs.amountAt_nonneg _ a) hamount).2
  rw [hvalue] at hle
  generalize getClaimRecord address .arkeo s = r at *
  rcases sendCoins_cases env account claimable (keyOf .arkeo address) a s with ⟨e, hsend⟩ | hsend
  · left
    rw [bind_error.mpr (.inl hsend)]
    rfl
  · right
    have hset : setClaimRecord env (r.setAmount a {})
        (s.sent account claimable (keyOf .arkeo address) a) =
          .ok () ((s.sent account claimable (keyOf .arkeo address) a).put (r.setAmount a {})) := by
      refine setClaimRecord_ok.mpr ⟨?_, rfl⟩
      rw [r.setAmount_address, r.setAmount_chain]
      exact hvalid
    refine ⟨claimable, _, bind_ok.mpr ⟨(), _, hsend, bind_ok.mpr ⟨(), _, hset, rfl⟩⟩, ?_⟩
    have hsound : (s.sent account claimable (keyOf .arkeo address) a).Sound env := hs
    refine ⟨hsound.put ?_ ?_, ⟨_, rfl, rfl, rfl, hle⟩, ?_, ?_⟩
    · rw [r.setAmount_address, r.setAmount_chain]
      exact hvalid
    · intro a'
      by_cases ha : a' = a
      · rw [ha, r.value_setAmount_self]
        exact le_rfl
      · rw [r.value_setAmount_of_ne {} ha, hvalue]
        exact hs.amountAt_nonneg _ a'
    · rw [Store.amountAt_put, r.setAmount_address, r.setAmount_chain, hkey, if_pos rfl,
        r.value_setAmount_self]
      rfl
    · intro k' a' hne'
      rw [Store.amountAt_put, r.setAmount_address, r.setAmount_chain, hkey]
      split
      · rename_i hk
        have ha : a' ≠ a := by
          rintro rfl
          exact hne' (by rw [hk])
        rw [r.value_setAmount_of_ne {} ha, hvalue, hk]
      · rfl

/-! ## Handing a record over -/

/-- One record goes over to another. -/
structure HandsOver (env : Env) (src dst : Key) (s s' : Store) : Prop where
  sound : s'.Sound env
  payments : s'.payments = s.payments
  /-- No more is added than is taken. -/
  received : src ≠ dst → ∀ a, s'.amountAt dst a ≤ s.amountAt dst a + s.amountAt src a
  given : src ≠ dst → ∀ a, s'.amountAt src a = 0
  same : src = dst → ∀ a, s'.amountAt dst a ≤ s.amountAt dst a
  others : ∀ k, k ≠ src → k ≠ dst → ∀ a, s'.amountAt k a = s.amountAt k a

theorem mergeAmounts_value {c d e : Coin} (hc : 0 ≤ c.value) (h : mergeAmounts c d = some e) :
    d.value ≤ e.value ∧ e.value ≤ c.value + d.value := by
  unfold mergeAmounts at h
  split at h
  · cases h
    exact ⟨le_rfl, by omega⟩
  · unfold Coin.add at h
    split at h
    · cases h
    · simp only [Option.bind_eq_some_iff] at h
      obtain ⟨m, hm, n, hn, h⟩ := h
      have hcv : c.value = m := by rw [Coin.value, hm, Option.getD_some]
      have hdv : d.value = n := by rw [Coin.value, hn, Option.getD_some]
      split at h
      · cases h
        rw [hcv] at hc ⊢
        rw [hdv]
        change n ≤ m + n ∧ m + n ≤ m + n
        omega
      · cases h

/-- A merged record is stored where its parts are and is worth no more than both. -/
theorem mergeClaimRecords_ok {r q m : ClaimRecord} {k : Key}
    (hr : ∀ a, 0 ≤ (r.amount a).value) (hq : ∀ a, 0 ≤ (q.amount a).value)
    (hrk : r.isEmpty = false → keyOf r.chain r.address = k) (hqk : keyOf q.chain q.address = k)
    (h : mergeClaimRecords r q = .ok m) :
    keyOf m.chain m.address = k ∧
      ∀ a, 0 ≤ (m.amount a).value ∧ (m.amount a).value ≤ (r.amount a).value + (q.amount a).value := by
  unfold mergeClaimRecords at h
  split at h
  · cases h
    refine ⟨hqk, ?_⟩
    intro a
    have := hr a
    have := hq a
    omega
  rename_i hre
  split at h
  · cases h
    refine ⟨hrk (by simpa using hre), ?_⟩
    intro a
    have := hr a
    have := hq a
    omega
  split at h
  · cases h
  split at h
  · cases h
  split at h
  · rename_i claim delegate vote hc hd hv
    cases h
    refine ⟨hrk (by simpa using hre), ?_⟩
    intro a
    cases a with
    | claim =>
      obtain ⟨hlo, hhi⟩ := mergeAmounts_value (hr .claim) hc
      exact ⟨Int.le_trans (hq .claim) hlo, hhi⟩
    | vote =>
      obtain ⟨hlo, hhi⟩ := mergeAmounts_value (hr .vote) hv
      exact ⟨Int.le_trans (hq .vote) hlo, hhi⟩
    | delegate =>
      obtain ⟨hlo, hhi⟩ := mergeAmounts_value (hr .delegate) hd
      exact ⟨Int.le_trans (hq .delegate) hlo, hhi⟩
  · cases h

/-- A record is wiped out and merged into another. -/
theorem handsOver_merge (hs : s.Sound env) {src dst : Key} {r q m : ClaimRecord} {address : String}
    (hrk : keyOf r.chain r.address = src)
    (hrv : env.isValidAddress r.address r.chain = true)
    (hra : ∀ a, (r.amount a).value = s.amountAt src a)
    (hqk : keyOf q.chain q.address = dst) (hdst : keyOf .arkeo address = dst)
    (hqa : ∀ a, (q.amount a).value = (r.amount a).value)
    (hm : mergeClaimRecords (getClaimRecord address .arkeo (s.put (r.setAllAmounts {}))) q = .ok m)
    (hmv : env.isValidAddress m.address m.chain = true) :
    HandsOver env src dst s ((s.put (r.setAllAmounts {})).put m) := by
  have hzero : ∀ a, ((r.setAllAmounts {}).amount a).value = 0 := by
    intro a
    cases a <;> rfl
  have hs₁ : (s.put (r.setAllAmounts {})).Sound env :=
    hs.put hrv (fun a => (hzero a).ge)
  -- the amounts once the record is wiped out
  have hamount₁ : ∀ k a, (s.put (r.setAllAmounts {})).amountAt k a =
      if k = src then 0 else s.amountAt k a := by
    intro k a
    rw [Store.amountAt_put, hzero]
    change (if k = keyOf r.chain r.address then _ else _) = _
    rw [hrk]
  have hexisting : ∀ a, ((getClaimRecord address .arkeo (s.put (r.setAllAmounts {}))).amount a).value
      = if dst = src then 0 else s.amountAt dst a := by
    intro a
    rw [value_getClaimRecord, hdst, hamount₁]
  have hnonneg : ∀ a, 0 ≤ s.amountAt dst a := hs.amountAt_nonneg dst
  obtain ⟨hmk, hma⟩ := mergeClaimRecords_ok (k := dst)
    (fun a => by rw [hexisting]; split <;> [exact le_rfl; exact hnonneg a])
    (fun a => by rw [hqa, hra]; exact hs.amountAt_nonneg src a)
    (fun he => ((hs₁.of_not_isEmpty he).1).trans hdst) hqk hm
  have hamount₂ : ∀ k a, ((s.put (r.setAllAmounts {})).put m).amountAt k a =
      if k = dst then (m.amount a).value else if k = src then 0 else s.amountAt k a := by
    intro k a
    rw [Store.amountAt_put, hmk, hamount₁]
  refine ⟨hs₁.put hmv fun a => (hma a).1, rfl, ?_, ?_, ?_, ?_⟩
  · intro hne a
    have := (hma a).2
    rw [hexisting, if_neg hne.symm, hqa, hra] at this
    rw [hamount₂, if_pos rfl]
    exact this
  · intro hne a
    rw [hamount₂, if_neg hne, if_pos rfl]
  · rintro rfl a
    have := (hma a).2
    rw [hexisting, if_pos rfl, hqa, hra] at this
    rw [hamount₂, if_pos rfl]
    omega
  · intro k hsrc hk a
    rw [hamount₂, if_neg hk, if_neg hsrc]

theorem int64OrZero_toInt {c : Coin} {n : Int64} (h : int64OrZero c = some n) :
    n.toInt = c.value := by
  unfold int64OrZero Coin.isNil Coin.int64 at h
  unfold Coin.value
  cases hc : c.amount with
  | none =>
    rw [hc] at h
    cases h
    rfl
  | some m =>
    simp only [hc, Option.isNone_some, Bool.false_eq_true, if_false, Option.bind_some] at h
    split at h
    · rename_i hfits
      cases h
      rw [Int64.toInt_ofInt]
      exact Int.bmod_eq_of_le (by simp only [Int64.size]; omega) (by simp only [Int64.size]; omega)
    · cases h

/-- A sum that does not fit is negative, and no coin. -/
theorem combine_value {c d e : Coin} (hc : 0 ≤ c.value) (hd : 0 ≤ d.value)
    (h : combine c d = some e) : e.value = c.value + d.value := by
  unfold combine at h
  simp only [Option.bind_eq_bind, Option.bind_eq_some_iff] at h
  obtain ⟨m, hm, n, hn, h⟩ := h
  obtain ⟨hv, hnonneg⟩ := newCoin_value h
  have hm' := int64OrZero_toInt hm
  have hn' := int64OrZero_toInt hn
  have := m.toInt_lt
  have := n.toInt_lt
  rw [Int64.toInt_add, Int.bmod_def] at hv hnonneg
  split at hv <;> split at hnonneg <;> omega

/-- What is claimed for THORChain moves from one record to another. -/
theorem handsOver_combine (hs : s.Sound env) {src dst : Key} {r q : ClaimRecord}
    (hne : src ≠ dst) (hrk : keyOf r.chain r.address = src) (hqk : keyOf q.chain q.address = dst)
    (hrv : env.isValidAddress r.address r.chain = true)
    (hqv : env.isValidAddress q.address q.chain = true)
    (hra : ∀ a, (r.amount a).value = 0)
    (hqa : ∀ a, (q.amount a).value = s.amountAt dst a + s.amountAt src a) :
    HandsOver env src dst s ((s.put r).put q) := by
  have hamount : ∀ k a, ((s.put r).put q).amountAt k a =
      if k = dst then s.amountAt dst a + s.amountAt src a
      else if k = src then 0 else s.amountAt k a := by
    intro k a
    rw [Store.amountAt_put, Store.amountAt_put, hqk, hrk, hqa, hra]
  refine ⟨?_, rfl, ?_, ?_, fun h => absurd h hne, ?_⟩
  · refine (hs.put hrv fun a => (hra a).ge).put hqv ?_
    intro a
    have := hs.amountAt_nonneg dst a
    have := hs.amountAt_nonneg src a
    rw [hqa]
    omega
  · intro _ a
    rw [hamount, if_pos rfl]
  · intro _ a
    rw [hamount, if_neg hne, if_pos rfl]
  · intro k hsrc hdst a
    rw [hamount, if_neg hdst, if_neg hsrc]

/-! ## The handlers -/

theorem readOnly_nothingLeft (r : ClaimRecord) : ReadOnly (nothingLeft r) := by
  unfold nothingLeft
  split
  · exact readOnly_pure true
  · refine (readOnly_ofOption _ _).bind fun b => ?_
    split
    · exact readOnly_pure false
    · refine (readOnly_ofOption _ _).bind fun b => ?_
      split
      · exact readOnly_pure false
      · exact readOnly_ofOption _ _

theorem readOnly_claimAmountOf (r : ClaimRecord) : ReadOnly (claimAmountOf r) := by
  unfold claimAmountOf
  split
  · exact readOnly_pure 0
  · refine (readOnly_ofOption _ _).bind fun zero => ?_
    split
    · exact readOnly_pure 0
    · exact readOnly_ofOption _ _

theorem nothingLeft_ok {r : ClaimRecord} (h : nothingLeft r s = .ok false s') :
    r.isEmpty = false ∧ s = s' := by
  have hread : finalStore (nothingLeft r s) = s := readOnly_nothingLeft r s
  rw [h] at hread
  refine ⟨?_, hread.symm⟩
  cases he : r.isEmpty with
  | false => rfl
  | true =>
    unfold nothingLeft at h
    rw [if_pos he] at h
    cases h

/-- The payment at the end of a handler that succeeds. -/
theorem pays_or_not (hs : s.Sound env) (hp : ctx.params.NoUnderflow) {address : String}
    {a : Action} {coin : Coin} (h : claimCoinsForAction env ctx address a s = .ok coin s') :
    s' = s ∨ PaysOut env (keyOf .arkeo address) a s s' := by
  rcases claimCoinsForAction_cases hs hp address a with he | ⟨coin', t, ht, hpay⟩
  · rw [h] at he
    exact .inl he
  · rw [h] at ht
    cases ht
    exact .inr hpay

/-- The end that `TransferClaim` and `ClaimEth` have in common: the record `r` is wiped
out, merged into that of another address, and the claim amount of that one paid. -/
theorem mergeInto_outcome (hs : s.Sound env) (hp : ctx.params.NoUnderflow) {src : Key}
    {r q m : ClaimRecord} {address : String} {coin : Coin} {t₁ t₂ : Store}
    (hrk : keyOf r.chain r.address = src) (hrv : env.isValidAddress r.address r.chain = true)
    (hra : ∀ a, (r.amount a).value = s.amountAt src a)
    (hqk : keyOf q.chain q.address = keyOf .arkeo address)
    (hqa : ∀ a, (q.amount a).value = (r.amount a).value)
    (hwipe : setClaimRecord env (r.setAllAmounts {}) s = .ok () t₁)
    (hmerge : mergeClaimRecords (getClaimRecord address .arkeo t₁) q = .ok m)
    (hset : setClaimRecord env m t₁ = .ok () t₂)
    (hclaim : claimCoinsForAction env ctx address .claim t₂ = .ok coin s') :
    ∃ t, HandsOver env src (keyOf .arkeo address) s t ∧
      (s' = t ∨ PaysOut env (keyOf .arkeo address) .claim t s') := by
  obtain ⟨-, rfl⟩ := setClaimRecord_ok.mp hwipe
  obtain ⟨hmv, rfl⟩ := setClaimRecord_ok.mp hset
  have hover := handsOver_merge hs hrk hrv hra hqk rfl hqa hmerge hmv
  exact ⟨_, hover, pays_or_not hover.sound hp hclaim⟩

theorem transferClaim_outcome (hs : s.Sound env) (hp : ctx.params.NoUnderflow)
    {creator dst : String} {u : Unit} (h : transferClaim env ctx creator dst s = .ok u s') :
    ∃ t, HandsOver env (keyOf .arkeo creator) (keyOf .arkeo dst) s t ∧
      (s' = t ∨ PaysOut env (keyOf .arkeo dst) .claim t s') := by
  unfold transferClaim at h
  rw [reading_bind] at h
  obtain ⟨b, t₀, hleft, h₁⟩ := bind_ok.mp h
  obtain ⟨hb, h₂⟩ := failIf_bind_ok.mp h₁
  rw [hb] at hleft
  obtain ⟨hne, rfl⟩ := nothingLeft_ok hleft
  obtain ⟨-, h₃⟩ := failIf_bind_ok.mp h₂
  obtain ⟨_, t₁, hwipe, h₄⟩ := bind_ok.mp h₃
  rw [reading_bind] at h₄
  obtain ⟨m, _, hmerge, h₅⟩ := bind_ok.mp h₄
  obtain ⟨hmerge', rfl⟩ := fromExcept_ok.mp hmerge
  obtain ⟨_, t₂, hset, h₆⟩ := bind_ok.mp h₅
  obtain ⟨coin, t₃, hclaim, h₇⟩ := bind_ok.mp h₆
  obtain ⟨-, rfl⟩ := pure_ok.mp h₇
  obtain ⟨hkey, hvalid⟩ := hs.of_not_isEmpty hne
  refine mergeInto_outcome hs hp hkey hvalid (value_getClaimRecord creator .arkeo s) rfl ?_ hwipe
    hmerge' hset hclaim
  intro a
  cases a <;> rfl

theorem claimEth_outcome (hs : s.Sound env) (hp : ctx.params.NoUnderflow)
    {creator ethAddress signature : String} {resp : ClaimEthResponse}
    (h : claimEth env ctx creator ethAddress signature s = .ok resp s') :
    ∃ t, HandsOver env (keyOf .ethereum ethAddress) (keyOf .arkeo creator) s t ∧
      (s' = t ∨ PaysOut env (keyOf .arkeo creator) .claim t s') := by
  unfold claimEth at h
  rw [reading_bind] at h
  obtain ⟨b, t₀, hleft, h₁⟩ := bind_ok.mp h
  obtain ⟨hb, h₂⟩ := failIf_bind_ok.mp h₁
  rw [hb] at hleft
  obtain ⟨hne, rfl⟩ := nothingLeft_ok hleft
  obtain ⟨total, -, h₃⟩ := ofOption_bind_ok.mp h₂
  obtain ⟨ethAmount, -, h₄⟩ := ofOption_bind_ok.mp h₃
  obtain ⟨-, h₅⟩ := failIf_bind_ok.mp h₄
  obtain ⟨_, t₁, hwipe, h₆⟩ := bind_ok.mp h₅
  rw [reading_bind] at h₆
  -- the amount for the response is only read
  obtain ⟨existingAmount, t₂, hread, h₇⟩ := bind_ok.mp h₆
  have ht₂ : t₂ = t₁ := by
    have hfinal := readOnly_claimAmountOf (getClaimRecord creator .arkeo t₁) t₁
    rw [hread] at hfinal
    exact hfinal
  rw [ht₂] at h₇
  obtain ⟨m, _, hmerge, h₈⟩ := bind_ok.mp h₇
  obtain ⟨hmerge', rfl⟩ := fromExcept_ok.mp hmerge
  obtain ⟨_, t₃, hset, h₉⟩ := bind_ok.mp h₈
  obtain ⟨coin, t₄, hclaim, hend⟩ := bind_ok.mp h₉
  obtain ⟨-, rfl⟩ := pure_ok.mp hend
  obtain ⟨hkey, hvalid⟩ := hs.of_not_isEmpty hne
  refine mergeInto_outcome hs hp hkey hvalid (value_getClaimRecord ethAddress .ethereum s) rfl ?_
    hwipe hmerge' hset hclaim
  intro a
  cases a <;> rfl

theorem claimThorchain_outcome (hs : s.Sound env) {creator src dst : String}
    {resp : String × String} (hne : keyOf .arkeo src ≠ keyOf .arkeo dst)
    (h : claimThorchain env creator src dst s = .ok resp s') :
    HandsOver env (keyOf .arkeo src) (keyOf .arkeo dst) s s' := by
  unfold claimThorchain at h
  obtain ⟨-, h₁⟩ := failIf_bind_ok.mp h
  obtain ⟨-, h₂⟩ := failIf_bind_ok.mp h₁
  rw [reading_bind] at h₂
  obtain ⟨b, t₀, hleft, h₃⟩ := bind_ok.mp h₂
  obtain ⟨hb, h₄⟩ := failIf_bind_ok.mp h₃
  rw [hb] at hleft
  obtain ⟨-, rfl⟩ := nothingLeft_ok hleft
  rw [reading_bind] at h₄
  obtain ⟨claim, hc, h₅⟩ := ofOption_bind_ok.mp h₄
  obtain ⟨vote, hv, h₆⟩ := ofOption_bind_ok.mp h₅
  obtain ⟨delegate, hd, h₇⟩ := ofOption_bind_ok.mp h₆
  obtain ⟨_, t₁, hset₁, h₈⟩ := bind_ok.mp h₇
  obtain ⟨_, t₂, hset₂, h₉⟩ := bind_ok.mp h₈
  obtain ⟨-, rfl⟩ := pure_ok.mp h₉
  obtain ⟨hrv, rfl⟩ := setClaimRecord_ok.mp hset₁
  obtain ⟨hqv, rfl⟩ := setClaimRecord_ok.mp hset₂
  have hsum : ∀ (a : Action) (e : Coin), combine ((getClaimRecord dst .arkeo s).amount a)
      ((getClaimRecord src .arkeo s).amount a) = some e →
      e.value = s.amountAt (keyOf .arkeo dst) a + s.amountAt (keyOf .arkeo src) a := by
    intro a e he
    have hval := combine_value (by rw [value_getClaimRecord]; exact hs.amountAt_nonneg _ a)
      (by rw [value_getClaimRecord]; exact hs.amountAt_nonneg _ a) he
    rw [value_getClaimRecord, value_getClaimRecord] at hval
    exact hval
  refine handsOver_combine hs hne rfl rfl hrv hqv ?_ ?_
  · intro a
    cases a <;> rfl
  · intro a
    cases a with
    | claim => exact hsum .claim claim hc
    | vote => exact hsum .vote vote hv
    | delegate => exact hsum .delegate delegate hd

end Arkeo.Airdrop
