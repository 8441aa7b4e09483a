import Mathlib.Tactic.Ring
import Arkeo.Settlement
import Arkeo.Shares
import Arkeo.World

/-! # The split of a debt between the provider and the reserve

A settlement for an arbitrary `ReserveTax`, of which the module's is the one at the configured
tax (`settleContractAt_reserveTax`).  The reserve's share is the debt times the tax, up to a
unit and a `10^18`-th of itself, and what leaves the contract module is what is added to
`Paid` and what is refunded (`settleContractAt_split`).

The transfers are guarded by the provider's share alone, `if !debt.IsZero()`: where the tax
takes the whole debt nothing is sent while `Paid` rises.
-/
namespace Arkeo
open Exec LegacyDec

/-! ## The settlement at a tax -/

/-- The reserve's share of a settled debt at a tax in basis points. -/
def reserveShareAt (tax : Int64) (totalDebt : ℤ) : ℤ :=
  roundInt (getSafeShare (ofInt tax.toInt) (ofInt maxBasisPoints.toInt) (ofInt totalDebt))

variable (cr : Crypto)

/-- `settleDebt` at a tax. -/
def settleDebtAt (tax : Int64) (ctx : Context) (c : Contract) (isFinal : Bool) : Keeper Contract := do
  let totalDebt ← contractDebt ctx c
  let valIncome := reserveShareAt tax totalDebt
  payDebt cr c (totalDebt - valIncome) valIncome
  let paid ← checked (c.paid + totalDebt)
  let c ← finalizeContract cr ctx { c with paid := paid } isFinal
  setContract c
  emitContractSettlementEvent ctx totalDebt valIncome c
  pure c

/-- `settleContract` at a tax. -/
def settleContractAt (tax : Int64) (ctx : Context) (c : Contract) (nonce : Int64) (isFinal : Bool) :
    Keeper Contract :=
  settleDebtAt cr tax ctx (c.raiseNonce nonce) isFinal

/-- The module settles at the configured tax. -/
theorem settleContractAt_reserveTax :
    settleContractAt cr (fetchConfig .reserveTax) = settleContract cr :=
  rfl

variable {cr} {ctx : Context} {s s' : ChainState} {c c' : Contract} {tax nonce : Int64}
  {isFinal : Bool} {d : ℤ}

/-! ## The share -/

/-- **The reserve's share** is within the debt, and twice its distance from the debt times the
tax is one unit and the `10^18`-th part of twice the share. -/
theorem reserveShareAt_bounds (htax : 0 ≤ tax.toInt) (hmax : tax.toInt ≤ 10000) (hd : 0 ≤ d)
    (hfit : d < 2 ^ 190) :
    (0 ≤ reserveShareAt tax d ∧ reserveShareAt tax d ≤ d) ∧
      2 * precision * |10000 * reserveShareAt tax d - d * tax.toInt| ≤
        2 * (d * tax.toInt) + 10000 * (precision + 1) := by
  have hprec : precision = 10 ^ 18 := rfl
  have hbasis : maxBasisPoints.toInt = 10000 := by decide
  have ha : 0 ≤ ofInt d := Int.mul_nonneg hd precision_pos.le
  have hp : 0 ≤ ofInt tax.toInt := Int.mul_nonneg htax precision_pos.le
  have ht : 0 < ofInt 10000 := by decide
  have hmin : min (ofInt tax.toInt) (ofInt 10000) = ofInt tax.toInt :=
    min_eq_left (Int.mul_le_mul_of_nonneg_right hmax precision_pos.le)
  unfold reserveShareAt
  rw [hbasis]
  obtain ⟨hv0, hupper⟩ := getSafeShare_le ha hp ht
  have hlower := le_getSafeShare ha hp ht (by unfold ofInt; rw [hprec]; omega) (by decide)
  have hle := getSafeShare_le_allocation ha hp ht
  rw [hmin] at hupper hlower
  generalize getSafeShare (ofInt tax.toInt) (ofInt 10000) (ofInt d) = v at hv0 hupper hlower hle ⊢
  obtain ⟨hround, hround'⟩ := roundInt_bounds hv0
  refine ⟨roundInt_mem hv0 hle, ?_⟩
  unfold ofInt at hupper hlower
  rw [hprec] at hupper hlower hround hround' ⊢
  set u := d * tax.toInt with hu
  have hprod : d * 10 ^ 18 * (tax.toInt * 10 ^ 18) = u * 10 ^ 36 := by
    rw [hu]
    ring
  rw [hprod] at hupper hlower
  rcases abs_cases (10000 * roundInt v - u) with ⟨habs, -⟩ | ⟨habs, -⟩
  · rw [habs]
    omega
  · rw [habs]
    omega

/-! ## What a settlement that succeeds has done -/

/-- The debt is what is left of the deposit, at most. -/
theorem contractDebt_mem (hle : c.paid ≤ c.deposit) (h : contractDebt ctx c s = .ok d s') :
    s' = s ∧ 0 ≤ d ∧ c.paid + d ≤ c.deposit := by
  unfold contractDebt at h
  obtain ⟨product, _, hp, h⟩ := bind_ok.mp h
  obtain ⟨-, rfl, rfl⟩ := Contract.product_ok.mp hp
  obtain ⟨_, _, hx, h⟩ := bind_ok.mp h
  obtain ⟨-, rfl, rfl⟩ := checked_ok.mp hx
  split at h
  · obtain ⟨rfl, rfl⟩ := pure_ok.mp h
    exact ⟨rfl, le_refl _, by omega⟩
  · obtain ⟨_, _, hx, h⟩ := bind_ok.mp h
    obtain ⟨-, rfl, rfl⟩ := checked_ok.mp hx
    split at h
    · obtain ⟨-, rfl, rfl⟩ := checked_ok.mp h
      exact ⟨rfl, by omega, by omega⟩
    · obtain ⟨rfl, rfl⟩ := pure_ok.mp h
      exact ⟨rfl, by omega, by omega⟩

/-- Where there is an income, or no tax either, both are sent. -/
theorem payDebt_sent {income valIncome : ℤ} {u : Unit} (hsent : income ≠ 0 ∨ valIncome = 0)
    (h : payDebt cr c income valIncome s = .ok u s') : s' = s.payout cr c income valIncome 0 := by
  unfold payDebt at h
  unfold ChainState.payout
  rw [ChainState.sent_zero]
  split at h
  · rename_i h0
    obtain ⟨-, rfl⟩ := pure_ok.mp h
    rw [h0, hsent.resolve_left (not_not.mpr h0), ChainState.sent_zero, ChainState.sent_zero]
  · rw [ofOption_bind_ok] at h
    simp only [bind_ok, newCoin_ok, sendFromModuleToAccount_ok, sendFromModuleToModule_ok] at h
    obtain ⟨addr, haddr, _, _, ⟨-, rfl, rfl⟩, _, _, ⟨-, rfl⟩, _, _, ⟨-, rfl, rfl⟩, -, rfl⟩ := h
    rw [Crypto.account_eq haddr]

theorem refundRemainder_sent (h : refundRemainder cr c s = .ok c' s') :
    c'.paid = c.paid ∧ s' = s.sent (.module .contract) (cr.account c.client)
      ⟨c.rate.denom, c.deposit - c.paid⟩ (.refund c.id) := by
  unfold refundRemainder at h
  obtain ⟨_, _, hx, h⟩ := bind_ok.mp h
  obtain ⟨-, rfl, rfl⟩ := checked_ok.mp hx
  split at h
  · rename_i h0
    obtain ⟨rfl, rfl⟩ := pure_ok.mp h
    rw [h0, ChainState.sent_zero]
    exact ⟨rfl, rfl⟩
  · rw [ofOption_bind_ok] at h
    simp only [bind_ok, newCoin_ok, sendFromModuleToAccount_ok, pure_ok] at h
    obtain ⟨addr, haddr, _, _, ⟨-, rfl, rfl⟩, _, _, ⟨-, rfl⟩, rfl, rfl⟩ := h
    rw [Crypto.account_eq haddr]
    exact ⟨rfl, rfl⟩

/-- The bank as it was, and the transfers it has made. -/
def SameBank (s t : ChainState) : Prop := t.bank = s.bank ∧ t.journal = s.journal

theorem removeFromUserContractSet_sameBank (user : PubKey) (id : ℕ) (t : ChainState) :
    Preserves (SameBank t) (removeFromUserContractSet user id) := by
  refine (readOnly_reading _).preserves.bind fun set => ?_
  refine (readOnly_ofOption _ _).preserves.bind fun set => ?_
  split
  · exact .writing fun s hs => hs
  · exact Preserves.failIf fun _ => .writing fun s hs => hs

theorem finalizeContract_sent (h : finalizeContract cr ctx c isFinal s = .ok c' s') :
    c'.paid = c.paid ∧ SameBank (s.sent (.module .contract) (cr.account c.client)
      ⟨c.rate.denom, if isFinal then c.deposit - c.paid else 0⟩ (.refund c.id)) s' := by
  unfold finalizeContract at h
  cases isFinal with
  | false =>
    obtain ⟨rfl, rfl⟩ := pure_ok.mp h
    rw [if_neg Bool.false_ne_true, ChainState.sent_zero]
    exact ⟨rfl, rfl, rfl⟩
  | true =>
    rw [if_pos rfl] at h ⊢
    obtain ⟨c₁, t, hrefund, h⟩ := bind_ok.mp h
    obtain ⟨hpaid, rfl⟩ := refundRemainder_sent hrefund
    obtain ⟨_, t', hremove, h⟩ := bind_ok.mp h
    obtain ⟨rfl, rfl⟩ := pure_ok.mp h
    have hsame := removeFromUserContractSet_sameBank c₁.getSpender c₁.id _ _
      (⟨rfl, rfl⟩ : SameBank (s.sent (.module .contract) (cr.account c.client)
        ⟨c.rate.denom, c.deposit - c.paid⟩ (.refund c.id)) _)
    exact ⟨hpaid, (congrArg (fun r => SameBank _ (finalStore r)) hremove).mp hsame⟩

/-! ## The split -/

/-- **An exact split.**  What leaves the contract module is what is added to `Paid` and what
is refunded; the reserve is sent a share, which times `10^18` is within `slack` of ten thousand
times the debt and the tax, the provider the rest, and neither is negative. -/
structure ExactSplit (cr : Crypto) (tax : Int64) (slack : ℤ) (c c' : Contract) (isFinal : Bool)
    (s s' : ChainState) : Prop where
  leaving : s.balance (.module .contract) c.rate.denom - s'.balance (.module .contract) c.rate.denom =
    (c'.paid - c.paid) + if isFinal then c.deposit - c'.paid else 0
  shares : ∃ share, 0 ≤ share ∧ share ≤ c'.paid - c.paid ∧
    s'.balance (.module .reserve) c.rate.denom = s.balance (.module .reserve) c.rate.denom + share ∧
    SameBank (s.payout cr c (c'.paid - c.paid - share) share
      (if isFinal then c.deposit - c'.paid else 0)) s' ∧
    precision * |10000 * share - (c'.paid - c.paid) * tax.toInt| ≤ slack

theorem ChainState.payout_reserve (income valIncome refund : ℤ) :
    (s.payout cr c income valIncome refund).balance (.module .reserve) c.rate.denom =
      s.balance (.module .reserve) c.rate.denom + valIncome := by
  unfold payout Crypto.account
  rw [sent_balance, sent_balance, sent_balance]
  simp

/-- The record and the transfers of a settlement in which the provider is left with a share
of what is owed. -/
theorem settleContractAt_sent (htax : 0 ≤ tax.toInt) (hmax : tax.toInt ≤ 10000)
    (hle : c.paid ≤ c.deposit) (hok : settleContractAt cr tax ctx c nonce isFinal s = .ok c' s')
    (hleft : c'.paid = c.paid ∨ reserveShareAt tax (c'.paid - c.paid) ≠ c'.paid - c.paid) :
    0 ≤ c'.paid - c.paid ∧
      SameBank (s.payout cr c (c'.paid - c.paid - reserveShareAt tax (c'.paid - c.paid))
        (reserveShareAt tax (c'.paid - c.paid)) (if isFinal then c.deposit - c'.paid else 0)) s' := by
  unfold settleContractAt settleDebtAt at hok
  obtain ⟨d, _, hdebt, h⟩ := bind_ok.mp hok
  obtain ⟨rfl, hd, -⟩ := contractDebt_mem (c := c.raiseNonce nonce) hle hdebt
  obtain ⟨_, t, hpay, h⟩ := bind_ok.mp h
  obtain ⟨_, _, hx, h⟩ := bind_ok.mp h
  obtain ⟨-, rfl, rfl⟩ := checked_ok.mp hx
  obtain ⟨c₁, t', hfinal, h⟩ := bind_ok.mp h
  obtain ⟨hpaid, hsame⟩ := finalizeContract_sent hfinal
  obtain ⟨_, t'', hset, h⟩ := bind_ok.mp h
  unfold setContract at hset
  rw [failIf_bind_ok, writing_ok] at hset
  obtain ⟨-, rfl⟩ := hset
  obtain ⟨_, _, hemit, h⟩ := bind_ok.mp h
  obtain rfl := emit_ok.mp hemit
  obtain ⟨rfl, rfl⟩ := pure_ok.mp h
  have hrise : c₁.paid - c.paid = d := by
    rw [hpaid]
    show c.paid + d - c.paid = d
    omega
  rw [hrise] at hleft ⊢
  have hsent : d - reserveShareAt tax d ≠ 0 ∨ reserveShareAt tax d = 0 := by
    rcases hleft with h0 | hne
    · right
      obtain rfl : d = 0 := by omega
      obtain ⟨⟨hlo, hhi⟩, -⟩ := reserveShareAt_bounds htax hmax (le_refl 0) (by decide)
      omega
    · left
      omega
  obtain rfl := payDebt_sent (c := c.raiseNonce nonce) hsent hpay
  refine ⟨hd, ?_⟩
  have hrefund : c.deposit - (c.paid + d) = c.deposit - c₁.paid := by omega
  rw [ChainState.payout_refund, ← hrefund]
  exact hsame

/-- **The split at every tax.**  Where the provider is left with a share of what is owed, or
nothing is owed, the split is exact up to a unit and the `10^18`-th part of the reserve's
share; while the debt times the tax is within `4 * 10^21` the unit alone is enough. -/
theorem settleContractAt_split (htax : 0 ≤ tax.toInt) (hmax : tax.toInt ≤ 10000)
    (hle : c.paid ≤ c.deposit) (h : settleContractAt cr tax ctx c nonce isFinal s = .ok c' s')
    (hfit : c'.paid - c.paid < 2 ^ 190)
    (hleft : c'.paid = c.paid ∨ reserveShareAt tax (c'.paid - c.paid) ≠ c'.paid - c.paid) :
    ExactSplit cr tax (10000 * precision + (c'.paid - c.paid) * tax.toInt) c c' isFinal s s' ∧
      ((c'.paid - c.paid) * tax.toInt ≤ 4 * 10 ^ 21 →
        ExactSplit cr tax (10000 * precision) c c' isFinal s s') := by
  obtain ⟨hd, hbank, hjournal⟩ := settleContractAt_sent htax hmax hle h hleft
  obtain ⟨⟨hlo, hhi⟩, hnear⟩ := reserveShareAt_bounds htax hmax hd hfit
  have hu : 0 ≤ (c'.paid - c.paid) * tax.toInt := Int.mul_nonneg hd htax
  have hsplit : ∀ slack, precision * |10000 * reserveShareAt tax (c'.paid - c.paid) -
      (c'.paid - c.paid) * tax.toInt| ≤ slack → ExactSplit cr tax slack c c' isFinal s s' := by
    intro slack hslack
    refine { leaving := ?_, shares := ⟨_, hlo, hhi, ?_, ⟨hbank, hjournal⟩, hslack⟩ }
    · have hleaving := @ChainState.payout_balance cr s c
        (c'.paid - c.paid - reserveShareAt tax (c'.paid - c.paid))
        (reserveShareAt tax (c'.paid - c.paid)) (if isFinal then c.deposit - c'.paid else 0)
        c.rate.denom
      rw [if_pos rfl] at hleaving
      rw [ChainState.balance, ChainState.balance, hbank]
      rw [ChainState.balance, ChainState.balance] at hleaving
      omega
    · rw [ChainState.balance, hbank]
      exact ChainState.payout_reserve _ _ _
  have hprec : precision = 10 ^ 18 := rfl
  constructor
  · refine hsplit _ ?_
    rw [hprec] at hnear ⊢
    omega
  · intro hsmall
    refine hsplit _ ?_
    rw [hprec] at hnear ⊢
    omega

namespace Sample

/-- A pay-as-you-go contract with one call at a rate, and a deposit for two. -/
def dear (rate : ℤ) : Contract where
  provider := provider.pubKey
  id := 1
  service := 10
  type := .payAsYouGo
  client := client.pubKey
  delegate := client.pubKey
  duration := 1
  rate := ⟨denom, rate⟩
  deposit := 2 * rate
  height := 1
  settlementDuration := 1
  queriesPerMinute := 1

/-- The store with the contract, whose deposit the module holds. -/
def dearChain (rate : ℤ) : ChainState where
  contracts := AList.insert 1 (dear rate) ∅
  userSets := AList.insert (toUpper client.pubKey) ⟨client.pubKey, some [1]⟩ ∅
  bank := Ledger.credit ∅ (.module .contract) denom (2 * rate)

/-- A settlement of the one call, and what it left: the sum paid, the balances of the contract
module and of the reserve. -/
def settleDear (tax : Int64) (rate : ℤ) : Option (ℤ × ℤ × ℤ) :=
  match settleContractAt crypto tax genesis.ctx (dear rate) 1 true (dearChain rate) with
  | .ok c s => some (c.paid, s.balance (.module .contract) denom, s.balance (.module .reserve) denom)
  | .error _ _ => none

theorem settleDear_ok {tax : Int64} {rate paid left taken : ℤ}
    (h : settleDear tax rate = some (paid, left, taken)) : ∃ c s,
      settleContractAt crypto tax genesis.ctx (dear rate) 1 true (dearChain rate) = .ok c s ∧
      c.paid = paid ∧ s.balance (.module .contract) denom = left ∧
      s.balance (.module .reserve) denom = taken := by
  unfold settleDear at h
  split at h
  · rename_i c s hok
    simp only [Option.some.injEq, Prod.mk.injEq] at h
    exact ⟨c, s, hok, h⟩
  · cases h

end Sample

/-- A call for `10^22` at the configured tax. -/
theorem dear_call_split : ∃ c s, settleContractAt Sample.crypto (fetchConfig .reserveTax)
      Sample.genesis.ctx (Sample.dear (10 ^ 22)) 1 true (Sample.dearChain (10 ^ 22)) = .ok c s ∧
    ExactSplit Sample.crypto (fetchConfig .reserveTax) (10000 * precision + 10 ^ 25)
      (Sample.dear (10 ^ 22)) c true (Sample.dearChain (10 ^ 22)) s := by
  have h : Sample.settleDear (fetchConfig .reserveTax) (10 ^ 22) = some (10 ^ 22, 0, 10 ^ 21) := by
    decide +kernel
  obtain ⟨c, s, hok, hpaid, -, -⟩ := Sample.settleDear_ok h
  have hrise : c.paid - (Sample.dear (10 ^ 22)).paid = 10 ^ 22 := by
    rw [hpaid]
    rfl
  have hsplit := settleContractAt_split (by decide) (by decide) (by decide) hok
    (by rw [hrise]; decide) (.inr (by rw [hrise]; decide +kernel))
  rw [hrise] at hsplit
  exact ⟨c, s, hok, hsplit.1⟩

/-- **Two taxes at which the split is not exact.**  At three tenths of `10^22` the reserve is
sent 300 units too many; at the whole of 100 the sum paid rises by 100, and nothing but the
refund leaves the contract module. -/
theorem split_inexact :
    (∃ c s, settleContractAt Sample.crypto 3000 Sample.genesis.ctx (Sample.dear (10 ^ 22)) 1 true
        (Sample.dearChain (10 ^ 22)) = .ok c s ∧ c.paid = 10 ^ 22 ∧
      s.balance (.module .reserve) denom = 3 * 10 ^ 21 + 300 ∧
      ¬ExactSplit Sample.crypto 3000 (10000 * precision) (Sample.dear (10 ^ 22)) c true
        (Sample.dearChain (10 ^ 22)) s) ∧
    ∃ c s, settleContractAt Sample.crypto 10000 Sample.genesis.ctx (Sample.dear 100) 1 true
        (Sample.dearChain 100) = .ok c s ∧ c.paid = 100 ∧
      s.balance (.module .contract) denom = 100 ∧ s.balance (.module .reserve) denom = 0 ∧
      ¬ExactSplit Sample.crypto 10000 (10000 * precision) (Sample.dear 100) c true
        (Sample.dearChain 100) s := by
  constructor
  · have h : Sample.settleDear 3000 (10 ^ 22) = some (10 ^ 22, 0, 3 * 10 ^ 21 + 300) := by
      decide +kernel
    obtain ⟨c, s, hok, hpaid, -, htaken⟩ := Sample.settleDear_ok h
    refine ⟨c, s, hok, hpaid, htaken, ?_⟩
    rintro ⟨-, share, -, -, hreserve, -, hnear⟩
    have hbefore : (Sample.dearChain (10 ^ 22)).balance (.module .reserve) denom = 0 := by
      decide +kernel
    have hshare : share = 3 * 10 ^ 21 + 300 := by
      have hreserve : s.balance (.module .reserve) denom =
          (Sample.dearChain (10 ^ 22)).balance (.module .reserve) denom + share := hreserve
      omega
    rw [hshare, hpaid] at hnear
    exact absurd hnear (by decide +kernel)
  · have h : Sample.settleDear 10000 100 = some (100, 100, 0) := by decide +kernel
    obtain ⟨c, s, hok, hpaid, hleft, htaken⟩ := Sample.settleDear_ok h
    refine ⟨c, s, hok, hpaid, hleft, htaken, ?_⟩
    rintro ⟨hleaving, -⟩
    have hbefore : (Sample.dearChain 100).balance (.module .contract) denom = 200 := by
      decide +kernel
    have hleaving : (Sample.dearChain 100).balance (.module .contract) denom -
        s.balance (.module .contract) denom = c.paid - 0 + (200 - c.paid) := hleaving
    omega

end Arkeo
