import Arkeo.KeeperSpec
import Arkeo.Lifecycle

/-! # What a settlement does

`settleContract` is a sequence of reads, checks and transfers.  On a well-formed
contract it comes down to a function of the store (`ChainState.settle`): the
record becomes `Contract.settled`, and what leaves the contract module is what
the record's remaining deposit shrinks by, split into the provider's income, the
tax and the client's refund.
-/
namespace Arkeo
open Exec

/-! ## The debt -/

namespace Contract

/-- What the contract has earned its provider at a height: by the nonce, or by
the time that has passed. -/
def due (ctx : Context) (c : Contract) : ℤ :=
  match c.type with
  | .subscription =>
      c.rate.amount *
        ((if ctx.blockHeight > c.settlementPeriodEnd then c.settlementPeriodEnd
          else ctx.blockHeight) - c.height).toInt * c.queriesPerMinute.toInt
  | .payAsYouGo => c.rate.amount * c.nonce.toInt
  | .unknown _ => 0

/-- The products of `due` stay within 256 bits. -/
def DueFits (ctx : Context) (c : Contract) : Prop :=
  match c.type with
  | .subscription =>
      (c.rate.amount * ((if ctx.blockHeight > c.settlementPeriodEnd then c.settlementPeriodEnd
          else ctx.blockHeight) - c.height).toInt).natAbs < 2 ^ 256 ∧ (c.due ctx).natAbs < 2 ^ 256
  | .payAsYouGo => (c.due ctx).natAbs < 2 ^ 256
  | .unknown _ => False

/-- The part of `due` that is not paid yet, within the deposit. -/
def debt (ctx : Context) (c : Contract) : ℤ :=
  if c.due ctx < c.paid then 0
  else if c.deposit < c.due ctx then c.deposit - c.paid
  else c.due ctx - c.paid

variable {ctx : Context} {c : Contract} {s s' : ChainState}

theorem product_ok {x : ℤ} :
    c.product ctx s = .ok x s' ↔ c.DueFits ctx ∧ c.due ctx = x ∧ s = s' := by
  unfold product DueFits due
  cases c.type with
  | subscription =>
    simp only [bind_ok, checked_ok]
    constructor
    · rintro ⟨_, _, ⟨h1, rfl, rfl⟩, h2, rfl, rfl⟩
      exact ⟨⟨h1, h2⟩, rfl, rfl⟩
    · rintro ⟨⟨h1, h2⟩, rfl, rfl⟩
      exact ⟨_, _, ⟨h1, rfl, rfl⟩, h2, rfl, rfl⟩
  | payAsYouGo => exact checked_ok
  | unknown n =>
    simp only [false_and, iff_false]
    intro h
    cases h

theorem debt_nonneg (ctx : Context) (h : c.paid ≤ c.deposit) : 0 ≤ c.debt ctx := by
  unfold debt
  split
  · omega
  · split <;> omega

theorem debt_le (ctx : Context) (h : c.paid ≤ c.deposit) : c.debt ctx ≤ c.remaining := by
  unfold debt remaining
  split
  · omega
  · split <;> omega

/-- Settling moves `paid` up to `due`, but not beyond the deposit. -/
theorem paid_add_debt (h : c.paid ≤ c.deposit) :
    c.paid + c.debt ctx = max c.paid (min (c.due ctx) c.deposit) := by
  unfold debt
  split
  · omega
  · split <;> omega

end Contract

/-- What a subscription has earned: the blocks that have passed, up to its end. -/
theorem Contract.Wf.due_subscription {cr : Crypto} {ctx : Context} {c : Contract} (hw : c.Wf cr)
    (ht : c.type = .subscription) (hh : c.height.toInt ≤ ctx.blockHeight.toInt) :
    c.due ctx = c.rate.amount * (min ctx.blockHeight.toInt c.endHeight - c.height.toInt) *
      c.queriesPerMinute.toInt ∧
    (c.DueFits ctx ↔
      (c.rate.amount * (min ctx.blockHeight.toInt c.endHeight - c.height.toInt)).natAbs < 2 ^ 256 ∧
        (c.due ctx).natAbs < 2 ^ 256) := by
  have hend : c.settlementPeriodEnd.toInt = c.endHeight := by
    rw [hw.settlementPeriodEnd_toInt]
    simp [Contract.isPayAsYouGo, ht]
  have hpos := hw.height_pos
  have hlt := hw.height_lt_expiration
  rw [hw.expiration_toInt] at hlt
  have hblocks : ((if ctx.blockHeight > c.settlementPeriodEnd then c.settlementPeriodEnd
      else ctx.blockHeight) - c.height).toInt =
        min ctx.blockHeight.toInt c.endHeight - c.height.toInt := by
    have hub := Int64.toInt_lt ctx.blockHeight
    have hue := Int64.toInt_lt c.settlementPeriodEnd
    split
    · rename_i h
      rw [gt_iff_lt, Int64.lt_iff_toInt_lt] at h
      rw [toInt_sub_of_fits] <;> omega
    · rename_i h
      rw [gt_iff_lt, Int64.lt_iff_toInt_lt] at h
      rw [toInt_sub_of_fits] <;> omega
  unfold DueFits due
  rw [ht]
  simp only [hblocks, and_self]

/-- What a pay-as-you-go contract has earned: its nonce. -/
theorem Contract.due_payAsYouGo (ctx : Context) {c : Contract} (ht : c.type = .payAsYouGo) :
    c.due ctx = c.rate.amount * c.nonce.toInt ∧
      (c.DueFits ctx ↔ (c.due ctx).natAbs < 2 ^ 256) := by
  unfold DueFits due
  rw [ht]
  exact ⟨rfl, Iff.rfl⟩

theorem Contract.Wf.due_nonneg {cr : Crypto} {ctx : Context} {c : Contract} (hw : c.Wf cr)
    (hh : c.height.toInt ≤ ctx.blockHeight.toInt) : 0 ≤ c.due ctx := by
  have hr := hw.rate_pos
  rcases hw.known with ht | ht
  · rw [(hw.due_subscription ht hh).1]
    have hlt := hw.height_lt_expiration
    rw [hw.expiration_toInt] at hlt
    exact Int.mul_nonneg (Int.mul_nonneg hr.le (by omega)) hw.queries_pos.le
  · rw [(Contract.due_payAsYouGo ctx ht).1]
    exact Int.mul_nonneg hr.le hw.nonce_nonneg

/-- The products of a settlement fit; only those of a pay-as-you-go contract have
to be tested. -/
theorem Contract.Wf.dueFits {cr : Crypto} {ctx : Context} {c : Contract} (hw : c.Wf cr)
    (hh : c.height.toInt ≤ ctx.blockHeight.toInt)
    (hn : c.type = .payAsYouGo → c.rate.amount * c.nonce.toInt < 2 ^ 256) : c.DueFits ctx := by
  have hr := hw.rate_pos
  have h0 := hw.due_nonneg hh
  rcases hw.known with ht | ht
  · obtain ⟨hdue, hfits⟩ := hw.due_subscription ht hh
    have hlt := hw.height_lt_expiration
    have hle := hw.duration_le
    have hmax := maxContractLength_toInt
    have hq := Int64.toInt_lt c.queriesPerMinute
    have hq0 := hw.queries_pos
    rw [hw.expiration_toInt] at hlt
    have hb0 : 0 ≤ min ctx.blockHeight.toInt c.endHeight - c.height.toInt := by omega
    have hb1 : min ctx.blockHeight.toInt c.endHeight - c.height.toInt ≤ 5256000 := by
      unfold endHeight at *
      omega
    have h1 : c.rate.amount * (min ctx.blockHeight.toInt c.endHeight - c.height.toInt) ≤
        2 ^ 63 * 5256000 := Int.mul_le_mul (hw.rate_fits ht).le hb1 hb0 (by decide)
    have h1' := Int.mul_nonneg hr.le hb0
    have h2 : c.rate.amount * (min ctx.blockHeight.toInt c.endHeight - c.height.toInt) *
        c.queriesPerMinute.toInt ≤ 2 ^ 63 * 5256000 * 2 ^ 63 :=
      Int.mul_le_mul h1 hq.le hq0.le (by decide)
    rw [hfits]
    omega
  · obtain ⟨hdue, hfits⟩ := Contract.due_payAsYouGo ctx ht
    have := hn ht
    rw [hfits]
    omega

theorem Contract.DueFits.natAbs_lt {ctx : Context} {c : Contract} (h : c.DueFits ctx) :
    (c.due ctx).natAbs < 2 ^ 256 := by
  unfold DueFits at h
  split at h
  · exact h.2
  · exact h
  · exact h.elim

/-- The three tests after the product never overflow. -/
theorem contractDebt_ok {ctx : Context} {c : Contract} {s s' : ChainState} {d : ℤ}
    (h0 : 0 ≤ c.paid) (hle : c.paid ≤ c.deposit) (hfit : c.deposit < 2 ^ 256)
    (hdue : 0 ≤ c.due ctx) :
    contractDebt ctx c s = .ok d s' ↔ c.DueFits ctx ∧ c.debt ctx = d ∧ s = s' := by
  unfold contractDebt
  rw [bind_ok]
  constructor
  · rintro ⟨_, _, hp, h⟩
    obtain ⟨hf, rfl, rfl⟩ := Contract.product_ok.mp hp
    obtain ⟨_, _, hd, h⟩ := bind_ok.mp h
    obtain ⟨-, rfl, rfl⟩ := checked_ok.mp hd
    refine ⟨hf, ?_⟩
    unfold Contract.debt
    split at h
    · obtain ⟨rfl, rfl⟩ := pure_ok.mp h
      exact ⟨if_pos (by omega), rfl⟩
    · rw [if_neg (by omega)]
      obtain ⟨_, _, ht, h⟩ := bind_ok.mp h
      obtain ⟨-, rfl, rfl⟩ := checked_ok.mp ht
      split at h
      · obtain ⟨-, rfl, rfl⟩ := checked_ok.mp h
        exact ⟨if_pos (by omega), rfl⟩
      · obtain ⟨rfl, rfl⟩ := pure_ok.mp h
        exact ⟨if_neg (by omega), rfl⟩
  · rintro ⟨hf, rfl, rfl⟩
    have hlt := hf.natAbs_lt
    refine ⟨_, s, Contract.product_ok.mpr ⟨hf, rfl, rfl⟩, ?_⟩
    refine bind_ok.mpr ⟨_, s, checked_ok.mpr ⟨by omega, rfl, rfl⟩, ?_⟩
    unfold Contract.debt
    by_cases h1 : c.due ctx < c.paid
    · rw [if_pos (by omega), if_pos h1]
      exact pure_ok.mpr ⟨rfl, rfl⟩
    · rw [if_neg (by omega), if_neg h1]
      refine bind_ok.mpr ⟨_, s, checked_ok.mpr ⟨by omega, rfl, rfl⟩, ?_⟩
      by_cases h2 : c.deposit < c.due ctx
      · rw [if_pos (by omega), if_pos h2]
        exact checked_ok.mpr ⟨by omega, rfl, rfl⟩
      · rw [if_neg (by omega), if_neg h2]
        exact pure_ok.mpr ⟨rfl, rfl⟩

/-! ## The reserve's share -/

theorem quo_ten {n : ℤ} (hn : 0 ≤ n) :
    LegacyDec.quo (LegacyDec.ofInt n) (10 * LegacyDec.precision) =
      if (n * 10 ^ 17).natAbs < 2 ^ LegacyDec.maxDecBitLen then some (n * 10 ^ 17) else none := by
  have hdiv : (LegacyDec.ofInt n * LegacyDec.precision ^ 2).tdiv (10 * LegacyDec.precision) =
      n * 10 ^ 17 * LegacyDec.precision := by
    have hmul : LegacyDec.ofInt n * LegacyDec.precision ^ 2 =
        n * 10 ^ 17 * LegacyDec.precision * (10 * LegacyDec.precision) := by
      unfold LegacyDec.ofInt LegacyDec.precision
      omega
    rw [hmul]
    exact Int.mul_tdiv_cancel _ (by decide)
  unfold LegacyDec.quo
  rw [if_neg (by decide), hdiv, LegacyDec.chopPrecisionAndRound_mul (by omega)]

/-- The tax is a tenth, rounded half to even; a debt too large for the decimals
is not taxed. -/
theorem reserveShare_eq {n : ℤ} (hn : 0 ≤ n) : reserveShare n =
    if (n * 10 ^ 17).natAbs < 2 ^ LegacyDec.maxDecBitLen then LegacyDec.roundInt (n * 10 ^ 17)
    else 0 := by
  have hq : LegacyDec.quo (LegacyDec.ofInt maxBasisPoints.toInt)
      (LegacyDec.ofInt (fetchConfig .reserveTax).toInt) = some (10 * LegacyDec.precision) := by
    decide +kernel
  unfold reserveShare getSafeShare getUncappedShare
  rw [if_neg (by decide), if_neg (by decide), hq, Option.bind_some, quo_ten hn]
  split
  · rfl
  · decide +kernel

theorem reserveShare_bounds {n : ℤ} (hn : 0 ≤ n) :
    0 ≤ reserveShare n ∧ 10 * reserveShare n ≤ n + 5 := by
  rw [reserveShare_eq hn]
  split
  · obtain ⟨hl, hu⟩ := LegacyDec.roundInt_bounds (x := n * 10 ^ 17) (by omega)
    unfold LegacyDec.precision at hl hu
    omega
  · omega

/-! ## The transfers -/

section Payout
variable (cr : Crypto)

/-- The account of a key. -/
def Crypto.account (key : PubKey) : Account := .user ((cr.getMyAddress key).getD [])

/-- The transfers of a settlement: income, tax and refund. -/
def ChainState.payout (s : ChainState) (c : Contract) (income tax refund : ℤ) : ChainState :=
  ((s.sent (.module .contract) (cr.account c.provider) ⟨c.rate.denom, income⟩ (.income c.id)).sent
    (.module .contract) (.module .reserve) ⟨c.rate.denom, tax⟩ (.tax c.id)).sent
    (.module .contract) (cr.account c.client) ⟨c.rate.denom, refund⟩ (.refund c.id)

variable {cr} {s s' : ChainState} {c : Contract}

theorem ChainState.sent_zero (s : ChainState) (src dst : Account) (d : String) (p : Purpose) :
    s.sent src dst ⟨d, 0⟩ p = s :=
  if_pos rfl

theorem Crypto.account_eq {key : PubKey} {addr : Bytes} (h : cr.getMyAddress key = some addr) :
    cr.account key = .user addr := by
  rw [account, h, Option.getD_some]

/-- The balance of the contract module after it has sent a coin elsewhere. -/
theorem ChainState.sent_contract_balance (s : ChainState) {dst : Account}
    (hd : dst ≠ .module .contract) (coin : Coin) (p : Purpose) :
    (s.sent (.module .contract) dst coin p).balance (.module .contract) coin.denom =
      s.balance (.module .contract) coin.denom - coin.amount := by
  rw [sent_balance, if_pos ⟨rfl, rfl⟩, if_neg (fun h => hd h.1.symm)]
  omega

/-- The provider and the reserve are paid if the module holds the whole debt. -/
theorem payDebt_ok (hp : ∃ addr, cr.getMyAddress c.provider = some addr)
    (hv : validateDenom c.rate.denom = true) (hs : s.bank.Nonneg) {d : ℤ} (hd : 0 ≤ d) {u : Unit} :
    payDebt cr c (d - reserveShare d) (reserveShare d) s = .ok u s' ↔
      d ≤ s.balance (.module .contract) c.rate.denom ∧
        s.payout cr c (d - reserveShare d) (reserveShare d) 0 = s' := by
  obtain ⟨hr0, hr⟩ := reserveShare_bounds hd
  obtain ⟨addr, ha⟩ := hp
  have hb := hs (.module .contract) c.rate.denom
  unfold payDebt ChainState.payout
  rw [ChainState.sent_zero, Crypto.account_eq ha]
  split
  · rename_i h
    obtain rfl : d = 0 := by omega
    have h0 : reserveShare 0 = 0 := by omega
    rw [h0, sub_zero, ChainState.sent_zero, ChainState.sent_zero, pure_ok]
    exact ⟨fun h => ⟨hb, h.2⟩, fun h => ⟨rfl, h.2⟩⟩
  · rw [ofOption_bind_ok]
    simp only [bind_ok, newCoin_ok, sendFromModuleToAccount_ok, sendFromModuleToModule_ok]
    constructor
    · rintro ⟨_, ha', _, _, ⟨-, rfl, rfl⟩, _, _, ⟨hi, rfl⟩, _, _, ⟨-, rfl, rfl⟩, ht, rfl⟩
      obtain rfl := Option.some.inj (ha.symm.trans ha')
      rw [ChainState.sent_contract_balance _ (by simp) ⟨_, _⟩] at ht
      simp only at ht
      exact ⟨by omega, rfl⟩
    · rintro ⟨hle, rfl⟩
      refine ⟨addr, ha, _, s, ⟨⟨hv, by omega⟩, rfl, rfl⟩, (), _, ⟨?_, rfl⟩, _, _,
        ⟨⟨hv, hr0⟩, rfl, rfl⟩, ?_, rfl⟩
      · simp only
        omega
      · rw [ChainState.sent_contract_balance _ (by simp) ⟨_, _⟩]
        simp only
        omega

/-- The client is refunded what remains of the deposit, if the module holds it. -/
theorem refundRemainder_ok (hc : ∃ addr, cr.getMyAddress c.client = some addr)
    (hd : validateDenom c.rate.denom = true) (h0 : 0 ≤ c.remaining) (hf : c.remaining < 2 ^ 256)
    (hb : 0 ≤ s.balance (.module .contract) c.rate.denom) {c' : Contract} :
    refundRemainder cr c s = .ok c' s' ↔
      c.remaining ≤ s.balance (.module .contract) c.rate.denom ∧ { c with deposit := c.paid } = c' ∧
        s.sent (.module .contract) (cr.account c.client) ⟨c.rate.denom, c.remaining⟩
          (.refund c.id) = s' := by
  obtain ⟨addr, ha⟩ := hc
  unfold refundRemainder
  rw [bind_ok, Crypto.account_eq ha]
  by_cases hr : c.remaining = 0
  · have hsame : { c with deposit := c.paid } = c := by
      obtain ⟨⟩ := c
      simp only [Contract.remaining, sub_eq_zero] at hr
      subst hr
      rfl
    rw [hr, ChainState.sent_zero, hsame]
    constructor
    · rintro ⟨_, _, hx, h⟩
      obtain ⟨-, rfl, rfl⟩ := checked_ok.mp hx
      rw [if_pos (by exact hr)] at h
      obtain ⟨rfl, rfl⟩ := pure_ok.mp h
      exact ⟨hb, rfl, rfl⟩
    · rintro ⟨-, rfl, rfl⟩
      refine ⟨_, s, checked_ok.mpr ⟨?_, rfl, rfl⟩, ?_⟩
      · unfold Contract.remaining at hr
        omega
      · rw [if_pos (by exact hr)]
        exact pure_ok.mpr ⟨rfl, rfl⟩
  · constructor
    · rintro ⟨_, _, hx, h⟩
      obtain ⟨-, rfl, rfl⟩ := checked_ok.mp hx
      rw [if_neg (by exact hr), ofOption_bind_ok] at h
      simp only [bind_ok, newCoin_ok, sendFromModuleToAccount_ok, pure_ok] at h
      obtain ⟨_, ha', _, _, ⟨-, rfl, rfl⟩, _, _, ⟨hle, rfl⟩, rfl, rfl⟩ := h
      obtain rfl := Option.some.inj (ha.symm.trans ha')
      exact ⟨hle, rfl, rfl⟩
    · rintro ⟨hle, rfl, rfl⟩
      refine ⟨_, s, checked_ok.mpr ⟨?_, rfl, rfl⟩, ?_⟩
      · unfold Contract.remaining at h0 hf
        omega
      · rw [if_neg (by exact hr), ofOption_bind_ok]
        simp only [bind_ok, newCoin_ok, sendFromModuleToAccount_ok, pure_ok]
        exact ⟨addr, ha, _, s, ⟨⟨hd, h0⟩, rfl, rfl⟩, (), _, ⟨hle, rfl⟩, trivial, rfl⟩

/-- The refund is the last of the transfers. -/
theorem ChainState.payout_refund (s : ChainState) (income tax refund : ℤ) :
    s.payout cr c income tax refund = (s.payout cr c income tax 0).sent (.module .contract)
      (cr.account c.client) ⟨c.rate.denom, refund⟩ (.refund c.id) := by
  unfold payout
  rw [sent_zero]

@[simp] theorem ChainState.payout_userSets (income tax refund : ℤ) :
    (s.payout cr c income tax refund).userSets = s.userSets := by
  simp [payout]

/-- The accounts of keys are not the contract module's. -/
theorem ChainState.payout_balance (income tax refund : ℤ) (d : String) :
    (s.payout cr c income tax refund).balance (.module .contract) d =
      s.balance (.module .contract) d - if d = c.rate.denom then income + tax + refund else 0 := by
  unfold payout Crypto.account
  rw [sent_balance, sent_balance, sent_balance]
  by_cases hd : d = c.rate.denom
  · simp [hd]
    omega
  · simp [hd]

theorem ChainState.payout_nonneg (hn : s.bank.Nonneg) {income tax refund : ℤ} (hi : 0 ≤ income)
    (ht : 0 ≤ tax) (hr : 0 ≤ refund)
    (hb : income + tax + refund ≤ s.balance (.module .contract) c.rate.denom) :
    (s.payout cr c income tax refund).bank.Nonneg := by
  unfold payout
  refine sent_nonneg _ _ _ _ _ (sent_nonneg _ _ _ _ _ (sent_nonneg _ _ _ _ _ hn hi ?_) ht ?_) hr ?_
  · simp only
    omega
  · rw [sent_balance]
    simp [Crypto.account]
    omega
  · rw [sent_balance, sent_balance]
    simp [Crypto.account]
    omega

theorem ChainState.payout_userIds (income tax refund : ℤ) (key : String) :
    (s.payout cr c income tax refund).userIds key = s.userIds key := by
  simp [userIds]

theorem ChainState.SetUsers.of_eq (h : s.SetUsers) (he : s'.userSets = s.userSets) : s'.SetUsers := by
  intro key set
  rw [he]
  exact h key set

end Payout

/-! ## The settlement as a whole -/

/-- The record after a settlement. -/
def Contract.settled (ctx : Context) (c : Contract) (isFinal : Bool) : Contract :=
  { c with
    paid := c.paid + c.debt ctx
    deposit := if isFinal then c.paid + c.debt ctx else c.deposit
    settlementHeight := if isFinal then ctx.blockHeight else c.settlementHeight }

/-- The event of a settlement. -/
def settleEvent (c : Contract) (debt : ℤ) : EventSettleContract where
  provider := c.provider
  contractId := c.id
  service := serviceString c.service
  client := c.client
  delegate := c.delegate
  type := c.type
  nonce := c.nonce
  height := c.height
  paid := debt
  reserve := reserveShare debt

/-- The store after a settlement. -/
def ChainState.settle (cr : Crypto) (ctx : Context) (c : Contract) (isFinal : Bool)
    (s : ChainState) : ChainState :=
  let debt := c.debt ctx
  let refund := if isFinal then c.remaining - debt else 0
  let s' := s.payout cr c (debt - reserveShare debt) (reserveShare debt) refund
  let s' := if isFinal then
      s'.putUserIds c.getSpender ((s.userIds (toUpper c.getSpender)).erase c.id)
    else s'
  { s' with
    contracts := s'.contracts.insert c.id (c.settled ctx isFinal)
    events := s'.events ++ [(ctx.blockHeight, .settleContract (settleEvent c debt))] }

section Settle
variable {cr : Crypto} {ctx : Context} {s s' : ChainState} {c c' : Contract} {isFinal : Bool}

/-- What leaves the contract module is what the remaining deposit shrinks by. -/
theorem Contract.settled_remaining : (c.settled ctx isFinal).remaining =
    c.remaining - c.debt ctx - if isFinal then c.remaining - c.debt ctx else 0 := by
  unfold remaining settled
  cases isFinal
  · simp
    omega
  · simp

theorem finalizeContract_ok (hw : c.Wf cr) (hb : 0 ≤ s.balance (.module .contract) c.rate.denom)
    (hu : s.SetUsers) :
    finalizeContract cr ctx c true s = .ok c' s' ↔
      (c.remaining ≤ s.balance (.module .contract) c.rate.denom ∧
        c.id ∈ s.userIds (toUpper c.getSpender)) ∧
      { c with deposit := c.paid, settlementHeight := ctx.blockHeight } = c' ∧
      (s.sent (.module .contract) (cr.account c.client) ⟨c.rate.denom, c.remaining⟩
        (.refund c.id)).putUserIds c.getSpender
          ((s.userIds (toUpper c.getSpender)).erase c.id) = s' := by
  have hsent : ∀ coin p, (s.sent (.module .contract) (cr.account c.client) coin p).SetUsers :=
    fun coin p => hu.of_eq (s.sent_userSets ..)
  have hfit : c.remaining < 2 ^ 256 := by
    have h1 := hw.paid_nonneg
    have h2 := hw.deposit_fits
    unfold Contract.remaining
    omega
  have href := fun (d : Contract) (t : ChainState) => @refundRemainder_ok cr s t c
    hw.client_address hw.denom_valid hw.remaining_nonneg hfit hb d
  unfold finalizeContract
  rw [if_pos rfl, bind_ok]
  constructor
  · rintro ⟨_, _, hr, h⟩
    obtain ⟨hle, rfl, rfl⟩ := (href _ _).mp hr
    obtain ⟨_, _, hx, h⟩ := bind_ok.mp h
    obtain ⟨hid, rfl⟩ := (removeFromUserContractSet_ok (hsent _ _) hw.getSpender_ne).mp hx
    obtain ⟨rfl, rfl⟩ := pure_ok.mp h
    rw [ChainState.userIds, ChainState.sent_userSets, ← ChainState.userIds] at hid
    refine ⟨⟨hle, hid⟩, rfl, ?_⟩
    rw [ChainState.userIds, ChainState.userIds, ChainState.sent_userSets]
  · rintro ⟨⟨hle, hid⟩, rfl, rfl⟩
    refine ⟨_, _, (href _ _).mpr ⟨hle, rfl, rfl⟩, ?_⟩
    refine bind_ok.mpr
      ⟨(), _, (removeFromUserContractSet_ok (hsent _ _) hw.getSpender_ne).mpr ⟨?_, rfl⟩, ?_⟩
    · rw [ChainState.userIds, ChainState.sent_userSets]
      exact hid
    · refine pure_ok.mpr ⟨rfl, ?_⟩
      rw [ChainState.userIds, ChainState.userIds, ChainState.sent_userSets]

/-- A contract stays well-formed when part of its debt is paid. -/
theorem Contract.Wf.pay (hw : c.Wf cr) {d : ℤ} (h0 : 0 ≤ d) (hle : d ≤ c.remaining) :
    ({ c with paid := c.paid + d } : Contract).Wf cr := by
  have hp := hw.paid_nonneg
  have hs := hw.settled_paid
  unfold remaining at hle
  exact { hw with
    paid_nonneg := by simp only; omega
    paid_le := by simp only; omega
    settled_paid := by
      intro hne
      have := hs hne
      simp only
      omega }

/-- **A settlement, inverted.**  On a well-formed contract `settleDebt` succeeds
exactly when its products fit, the module holds what has to be paid out, and,
for a final settlement, the contract is still in its user's set; it then does
what `settle` says. -/
theorem settleDebt_ok (hw : c.Wf cr) (hdue : 0 ≤ c.due ctx) (hn : s.bank.Nonneg)
    (hu : s.SetUsers) :
    settleDebt cr ctx c isFinal s = .ok c' s' ↔
      (c.DueFits ctx ∧
        c.remaining - (c.settled ctx isFinal).remaining ≤
          s.balance (.module .contract) c.rate.denom ∧
        (isFinal = true → c.id ∈ s.userIds (toUpper c.getSpender))) ∧
      c.settled ctx isFinal = c' ∧ s.settle cr ctx c isFinal = s' := by
  have hp0 := hw.paid_nonneg
  have hdf := hw.deposit_fits
  have hd0 : 0 ≤ c.debt ctx := Contract.debt_nonneg ctx hw.paid_le
  have hdle : c.debt ctx ≤ c.remaining := Contract.debt_le ctx hw.paid_le
  have hsum : c.remaining = c.deposit - c.paid := rfl
  have hdebt := fun (d : ℤ) (t : ChainState) => @contractDebt_ok ctx c s t d
    hw.paid_nonneg hw.paid_le hw.deposit_fits hdue
  have hpay := fun (t : ChainState) => @payDebt_ok cr s t c
    hw.provider_address hw.denom_valid hn (c.debt ctx) hd0 ()
  have hpaid := hw.pay hd0 hdle
  rw [Contract.settled_remaining]
  unfold ChainState.settle Contract.settled
  generalize c.debt ctx = d at hd0 hdle hdebt hpay hpaid ⊢
  -- the store once the debt is paid; the income and the tax make up the debt
  have hbal : (s.payout cr c (d - reserveShare d) (reserveShare d) 0).balance (.module .contract)
      c.rate.denom = s.balance (.module .contract) c.rate.denom - d := by
    rw [ChainState.payout_balance, if_pos rfl]
    omega
  have hfin := fun (hle : d ≤ s.balance (.module .contract) c.rate.denom) (d' : Contract)
      (t : ChainState) => @finalizeContract_ok cr ctx
        (s.payout cr c (d - reserveShare d) (reserveShare d) 0) t _ d' hpaid (by simp only; omega)
        (hu.of_eq (ChainState.payout_userSets ..))
  unfold settleDebt
  rw [bind_ok]
  constructor
  · rintro ⟨_, _, hx, h⟩
    obtain ⟨hf, rfl, rfl⟩ := (hdebt _ _).mp hx
    obtain ⟨_, _, hx, h⟩ := bind_ok.mp h
    obtain ⟨hle, rfl⟩ := (hpay _).mp hx
    obtain ⟨_, _, hx, h⟩ := bind_ok.mp h
    obtain ⟨-, rfl, rfl⟩ := checked_ok.mp hx
    obtain ⟨c₂, s₂, hx, h⟩ := bind_ok.mp h
    obtain ⟨_, _, hset, h⟩ := bind_ok.mp h
    obtain ⟨-, rfl⟩ := setContract_ok.mp hset
    obtain ⟨_, _, hemit, h⟩ := bind_ok.mp h
    rw [emitContractSettlementEvent, emit_ok] at hemit
    subst hemit
    obtain ⟨rfl, rfl⟩ := pure_ok.mp h
    cases isFinal with
    | false =>
      obtain ⟨rfl, rfl⟩ := pure_ok.mp hx
      refine ⟨⟨hf, ?_, nofun⟩, rfl, ?_⟩
      · simp only [Bool.false_eq_true, if_false]
        omega
      · simp only [Bool.false_eq_true, if_false, settleEvent]
    | true =>
      obtain ⟨⟨hle', hid⟩, rfl, rfl⟩ := (hfin hle _ _).mp hx
      simp only [Contract.remaining, hbal] at hle'
      rw [ChainState.payout_userIds] at hid
      refine ⟨⟨hf, ?_, fun _ => hid⟩, rfl, ?_⟩
      · simp only [if_true]
        omega
      · simp only [if_true]
        rw [s.payout_refund _ _ (c.remaining - d), ChainState.payout_userIds]
        simp only [Contract.remaining, sub_sub, Contract.getSpender, settleEvent]
  · rintro ⟨⟨hf, hle, hid⟩, rfl, rfl⟩
    have hdle' : d ≤ s.balance (.module .contract) c.rate.denom := by
      split at hle <;> omega
    refine ⟨d, s, (hdebt _ _).mpr ⟨hf, rfl, rfl⟩, ?_⟩
    refine bind_ok.mpr ⟨(), _, (hpay _).mpr ⟨hdle', rfl⟩, ?_⟩
    refine bind_ok.mpr ⟨_, _, checked_ok.mpr ⟨by omega, rfl, rfl⟩, ?_⟩
    cases isFinal with
    | false =>
      refine bind_ok.mpr ⟨_, _, pure_ok.mpr ⟨rfl, rfl⟩, ?_⟩
      refine bind_ok.mpr ⟨(), _, setContract_ok.mpr ⟨⟨hw.provider_ne, hw.client_ne⟩, rfl⟩, ?_⟩
      refine bind_ok.mpr ⟨(), _, emit_ok.mpr rfl, pure_ok.mpr ⟨rfl, ?_⟩⟩
      simp only [Bool.false_eq_true, if_false, settleEvent]
    | true =>
      refine bind_ok.mpr ⟨_, _, (hfin hdle' _ _).mpr ⟨⟨?_, ?_⟩, rfl, rfl⟩, ?_⟩
      · simp only [Contract.remaining, hbal]
        simp only [if_true] at hle
        omega
      · rw [ChainState.payout_userIds]
        exact hid rfl
      · refine bind_ok.mpr ⟨(), _, setContract_ok.mpr ⟨⟨hw.provider_ne, hw.client_ne⟩, rfl⟩, ?_⟩
        refine bind_ok.mpr ⟨(), _, emit_ok.mpr rfl, pure_ok.mpr ⟨rfl, ?_⟩⟩
        simp only [if_true]
        rw [s.payout_refund _ _ (c.remaining - d), ChainState.payout_userIds]
        simp only [Contract.remaining, sub_sub, Contract.getSpender, settleEvent]

/-- **A second final settlement does nothing.**  Once a contract is settled nothing
is owed and nothing remains, and since its id has left the user's set the
settlement fails before it writes. -/
theorem settleDebt_again (hw : c.Wf cr) (hdue : 0 ≤ c.due ctx) (hf : c.DueFits ctx)
    (hs : c.settlementHeight ≠ 0) (hid : c.id ∉ s.userIds (toUpper c.getSpender)) :
    settleDebt cr ctx c true s = .error (.err .plain) s := by
  have hpd := hw.settled_paid hs
  have h0 := hw.paid_nonneg
  have hdf := hw.deposit_fits
  have hd0 : c.debt ctx = 0 := by
    have h1 := Contract.debt_nonneg ctx hw.paid_le
    have h2 := Contract.debt_le ctx hw.paid_le
    unfold Contract.remaining at h2
    omega
  have hr0 : reserveShare 0 = 0 := by
    obtain ⟨h1, h2⟩ := reserveShare_bounds (le_refl 0)
    omega
  have hdebt : contractDebt ctx c s = .ok 0 s :=
    (contractDebt_ok hw.paid_nonneg hw.paid_le hw.deposit_fits hdue).mpr ⟨hf, hd0, rfl⟩
  refine bind_error.mpr (.inr ⟨0, s, hdebt, ?_⟩)
  rw [hr0, sub_zero]
  refine bind_error.mpr (.inr ⟨(), s, pure_ok.mpr ⟨rfl, rfl⟩, ?_⟩)
  refine bind_error.mpr (.inr ⟨c.paid, s, checked_ok.mpr ⟨by omega, by omega, rfl⟩, ?_⟩)
  refine bind_error.mpr (.inl ?_)
  unfold finalizeContract
  rw [if_pos rfl]
  refine bind_error.mpr (.inr ⟨c, s, ?_, ?_⟩)
  · refine bind_ok.mpr ⟨0, s, checked_ok.mpr ⟨by simp only; omega, by simp only; omega, rfl⟩, ?_⟩
    exact pure_ok.mpr ⟨rfl, rfl⟩
  · exact bind_error.mpr (.inl (removeFromUserContractSet_error hid))

/-! ## What a settlement leaves -/

section Settled
variable (cr) (ctx) (c) (isFinal) (s)

@[simp] theorem ChainState.settle_contracts : (s.settle cr ctx c isFinal).contracts =
    s.contracts.insert c.id (c.settled ctx isFinal) := by
  cases isFinal <;> simp [settle, payout, putUserIds]

theorem ChainState.settle_lookup (k : ℕ) : (s.settle cr ctx c isFinal).contracts.lookup k =
    if k = c.id then some (c.settled ctx isFinal) else s.contracts.lookup k := by
  rw [settle_contracts]
  by_cases hk : k = c.id
  · rw [if_pos hk, hk, AList.lookup_insert]
  · rw [if_neg hk, AList.lookup_insert_ne hk]

@[simp] theorem ChainState.settle_expirationSets :
    (s.settle cr ctx c isFinal).expirationSets = s.expirationSets := by
  cases isFinal <;> simp [settle, payout, putUserIds]

@[simp] theorem ChainState.settle_nextContractId :
    (s.settle cr ctx c isFinal).nextContractId = s.nextContractId := by
  cases isFinal <;> simp [settle, payout, putUserIds]

@[simp] theorem ChainState.settle_providers :
    (s.settle cr ctx c isFinal).providers = s.providers := by
  cases isFinal <;> simp [settle, payout, putUserIds]

theorem ChainState.settle_events : (s.settle cr ctx c isFinal).events =
    s.events ++ [(ctx.blockHeight, .settleContract (settleEvent c (c.debt ctx)))] := by
  cases isFinal <;> simp [settle, payout, putUserIds]

theorem ChainState.settle_userSets_of_not_final :
    (s.settle cr ctx c false).userSets = s.userSets := by
  simp [settle]

theorem ChainState.settle_userIds (key : String) :
    (s.settle cr ctx c isFinal).userIds key =
      if isFinal = true ∧ key = toUpper c.getSpender then (s.userIds key).erase c.id
      else s.userIds key := by
  cases isFinal with
  | false =>
    rw [if_neg (fun h => Bool.false_ne_true h.1), userIds, settle_userSets_of_not_final]
    rfl
  | true =>
    change (putUserIds _ _ _).userIds key = _
    rw [userIds_putUserIds, payout_userIds]
    by_cases hk : key = toUpper c.getSpender
    · subst hk
      simp
    · simp [hk]

theorem ChainState.SetUsers.settle (hu : s.SetUsers) : (s.settle cr ctx c isFinal).SetUsers := by
  have hp : ∀ i t r, (s.payout cr c i t r).SetUsers := fun i t r =>
    hu.of_eq (ChainState.payout_userSets ..)
  cases isFinal with
  | false => exact hu.of_eq (ChainState.settle_userSets_of_not_final ..)
  | true => exact ((hp _ _ _).putUserIds _ _).of_eq rfl

theorem ChainState.settle_bank : (s.settle cr ctx c isFinal).bank =
    (s.payout cr c (c.debt ctx - reserveShare (c.debt ctx)) (reserveShare (c.debt ctx))
      (if isFinal then c.remaining - c.debt ctx else 0)).bank := by
  cases isFinal <;> simp [settle, putUserIds]

theorem ChainState.settle_journal : (s.settle cr ctx c isFinal).journal =
    (s.payout cr c (c.debt ctx - reserveShare (c.debt ctx)) (reserveShare (c.debt ctx))
      (if isFinal then c.remaining - c.debt ctx else 0)).journal := by
  cases isFinal <;> simp [settle, putUserIds]

theorem ChainState.settle_balance (d : String) :
    (s.settle cr ctx c isFinal).balance (.module .contract) d =
      s.balance (.module .contract) d -
        if d = c.rate.denom then c.remaining - (c.settled ctx isFinal).remaining else 0 := by
  rw [balance, settle_bank, ← balance, payout_balance, Contract.settled_remaining]
  split <;> omega

theorem ChainState.settle_supply (d : String) :
    (s.settle cr ctx c isFinal).bank.supply d = s.bank.supply d := by
  rw [settle_bank, payout, sent_supply, sent_supply, sent_supply]

end Settled

/-- The balances stay non-negative when the module holds what is paid out. -/
theorem ChainState.settle_nonneg (hle : c.paid ≤ c.deposit) (hn : s.bank.Nonneg)
    (hb : c.remaining - (c.settled ctx isFinal).remaining ≤
      s.balance (.module .contract) c.rate.denom) : (s.settle cr ctx c isFinal).bank.Nonneg := by
  have hd0 := Contract.debt_nonneg ctx hle
  have hdle := Contract.debt_le ctx hle
  obtain ⟨hr0, hr⟩ := reserveShare_bounds hd0
  rw [Contract.settled_remaining] at hb
  rw [settle_bank]
  refine payout_nonneg hn (by omega) hr0 ?_ ?_
  · split <;> omega
  · generalize (if isFinal = true then c.remaining - c.debt ctx else 0) = refund at hb ⊢
    omega

end Settle

end Arkeo
