import Arkeo.Manager

/-! # Well-formed contracts

What every contract in the store satisfies (`Contract.Wf`), and the arithmetic
that follows from it: the heights of its life cycle do not wrap around, so that
`expiration` and `settlementPeriodEnd` are the sums they are meant to be.
-/
namespace Arkeo

theorem toInt_add_of_fits {a b : Int64} (hl : -2 ^ 63 ≤ a.toInt + b.toInt)
    (hu : a.toInt + b.toInt < 2 ^ 63) : (a + b).toInt = a.toInt + b.toInt := by
  rw [Int64.toInt_add]
  exact Int.bmod_eq_of_le (by omega) (by omega)

theorem toInt_sub_of_fits {a b : Int64} (hl : -2 ^ 63 ≤ a.toInt - b.toInt)
    (hu : a.toInt - b.toInt < 2 ^ 63) : (a - b).toInt = a.toInt - b.toInt := by
  rw [Int64.toInt_sub]
  exact Int.bmod_eq_of_le (by omega) (by omega)

/-- The longest duration a contract may have. -/
theorem maxContractLength_toInt : (fetchConfig .maxContractLength).toInt = 5256000 := by decide

namespace Contract

/-- What every stored contract satisfies. -/
structure Wf (cr : Crypto) (c : Contract) : Prop where
  height_pos : 0 < c.height.toInt
  height_fits : c.height.toInt + (fetchConfig .maxContractLength).toInt < 2 ^ 63
  duration_pos : 0 < c.duration.toInt
  duration_le : c.duration.toInt ≤ (fetchConfig .maxContractLength).toInt
  settlementDuration_nonneg : 0 ≤ c.settlementDuration.toInt
  end_fits : c.type = .payAsYouGo →
    c.height.toInt + c.duration.toInt + c.settlementDuration.toInt < 2 ^ 63
  known : c.type = .subscription ∨ c.type = .payAsYouGo
  rate_pos : 0 < c.rate.amount
  denom_valid : validateDenom c.rate.denom = true
  rate_fits : c.type = .subscription → c.rate.amount < 2 ^ 63
  nonce_nonneg : 0 ≤ c.nonce.toInt
  queries_pos : 0 < c.queriesPerMinute.toInt
  provider_address : ∃ addr, cr.getMyAddress c.provider = some addr
  client_address : ∃ addr, cr.getMyAddress c.client = some addr
  provider_ne : c.provider ≠ ""
  client_ne : c.client ≠ ""
  delegate_ne : c.delegate ≠ ""
  paid_nonneg : 0 ≤ c.paid
  paid_le : c.paid ≤ c.deposit
  deposit_fits : c.deposit < 2 ^ 256
  settlementHeight_nonneg : 0 ≤ c.settlementHeight.toInt
  settled_paid : c.settlementHeight ≠ 0 → c.paid = c.deposit

variable {cr : Crypto} {c : Contract}

/-- The end of the paid period as a number. -/
def endHeight (c : Contract) : ℤ := c.height.toInt + c.duration.toInt

theorem Wf.expiration_toInt (h : c.Wf cr) : c.expiration.toInt = c.endHeight := by
  have hmax := maxContractLength_toInt
  have h1 := h.height_pos
  have h2 := h.height_fits
  have h3 := h.duration_pos
  have h4 := h.duration_le
  exact toInt_add_of_fits (by omega) (by omega)

theorem Wf.settlementPeriodEnd_toInt (h : c.Wf cr) : c.settlementPeriodEnd.toInt =
    c.endHeight + if c.isPayAsYouGo then c.settlementDuration.toInt else 0 := by
  have he := h.expiration_toInt
  unfold settlementPeriodEnd
  cases hp : c.isPayAsYouGo with
  | false => simpa using he
  | true =>
    have ht : c.type = .payAsYouGo := by simpa [isPayAsYouGo] using hp
    have h1 := h.end_fits ht
    have h2 := h.settlementDuration_nonneg
    have h3 := h.height_pos
    have h4 := h.duration_pos
    simp only [if_true]
    rw [toInt_add_of_fits, he] <;> unfold endHeight at * <;> omega

theorem Wf.expiration_le_settlementPeriodEnd (h : c.Wf cr) :
    c.expiration.toInt ≤ c.settlementPeriodEnd.toInt := by
  rw [h.expiration_toInt, h.settlementPeriodEnd_toInt]
  have := h.settlementDuration_nonneg
  split <;> omega

theorem Wf.height_lt_expiration (h : c.Wf cr) : c.height.toInt < c.expiration.toInt := by
  rw [h.expiration_toInt, endHeight]
  have := h.duration_pos
  omega

/-- A contract is open up to the end of the paid period, and up to its settlement. -/
theorem Wf.isOpen_iff (h : c.Wf cr) {t : Int64} : c.isOpen t = true ↔
    t.toInt ≤ c.endHeight ∧ (c.settlementHeight.toInt = 0 ∨ t.toInt ≤ c.settlementHeight.toInt) := by
  have hheight : ¬c.height = 0 := by
    intro h0
    have hpos := h.height_pos
    rw [h0] at hpos
    exact absurd hpos (by decide)
  have hzero : (0 : Int64).toInt = 0 := rfl
  have hnonneg := h.settlementHeight_nonneg
  simp only [isOpen, isEmpty, hheight, Bool.and_eq_true, Bool.not_eq_true', decide_eq_false_iff_not,
    true_and, Bool.and_eq_false_iff, decide_false, Int64.lt_iff_toInt_lt,
    h.expiration_toInt, hzero]
  omega

theorem Wf.getSpender_eq (h : c.Wf cr) : c.getSpender = c.delegate :=
  if_pos h.delegate_ne

theorem Wf.getSpender_ne (h : c.Wf cr) : c.getSpender ≠ "" := by
  rw [h.getSpender_eq]
  exact h.delegate_ne

/-- What of the deposit has not been paid out. -/
def remaining (c : Contract) : ℤ := c.deposit - c.paid

/-! What raising the nonce leaves alone. -/

@[simp] theorem raiseNonce_id (n : Int64) : (c.raiseNonce n).id = c.id := rfl
@[simp] theorem raiseNonce_rate (n : Int64) : (c.raiseNonce n).rate = c.rate := rfl
@[simp] theorem raiseNonce_getSpender (n : Int64) : (c.raiseNonce n).getSpender = c.getSpender := rfl
@[simp] theorem raiseNonce_remaining (n : Int64) : (c.raiseNonce n).remaining = c.remaining := rfl

theorem Wf.remaining_nonneg (h : c.Wf cr) : 0 ≤ c.remaining :=
  Int.sub_nonneg_of_le h.paid_le

end Contract

end Arkeo
