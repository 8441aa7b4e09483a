import Arkeo.Airdrop.Spec

/-! # The amount claimable

What is claimable for an action, with all the failures and for any durations.  Of an amount
`ctx.factor` ten-thousandths are claimable, rounded towards zero (`claimableAmount_eq`); the
durations of the parameters have no sign restriction, and the factor is between none and all
only when they are not negative.
-/
namespace Arkeo.Airdrop
open Exec LegacyDec

variable {ctx : Context} {r : ClaimRecord} {a : Action}

/-- What is left after some of the decay, of ten thousand. -/
def decayFactor (decayTime durationOfDecay : Int64) : ℤ :=
  roundInt ((precision - (ofInt decayTime.toInt).tdiv durationOfDecay.toInt) * 10000)

namespace Context

def elapsed (ctx : Context) : Int64 := timeSub ctx.blockTime ctx.params.airdropStartTime

def Started (ctx : Context) : Prop := ctx.params.airdropStartTime ≤ ctx.blockTime

def Decaying (ctx : Context) : Prop := ctx.params.durationUntilDecay < ctx.elapsed

/-- The claims are refused as ended. -/
def Ended (ctx : Context) : Prop :=
  ctx.Decaying ∧ ctx.params.durationUntilDecay + ctx.params.durationOfDecay < ctx.elapsed

instance (ctx : Context) : Decidable ctx.Started := Int.decLe _ _
instance (ctx : Context) : Decidable ctx.Decaying :=
  inferInstanceAs (Decidable (_ < ctx.elapsed))
instance (ctx : Context) : Decidable ctx.Ended := inferInstanceAs (Decidable (_ ∧ _))

/-- The ten-thousandths of an amount that are claimable. -/
def factor (ctx : Context) : ℤ :=
  if ¬ctx.Started ∨ ctx.Ended then 0
  else if ctx.Decaying then
    decayFactor (ctx.elapsed - ctx.params.durationUntilDecay) ctx.params.durationOfDecay
  else 10000

/-- What is claimable of a coin. -/
def worth (ctx : Context) (c : Coin) : ℤ := (c.value * ctx.factor).tdiv 10000

/-- What is claimable of a coin can be computed: once it decays, the product has to fit and
a valid coin to come out. -/
def Computes (ctx : Context) (c : Coin) : Prop :=
  ctx.Decaying → validateDenom c.denom = true ∧ (c.value * ctx.factor).natAbs < 2 ^ 256 ∧
    0 ≤ ctx.worth c

instance (ctx : Context) (c : Coin) : Decidable (ctx.Computes c) :=
  inferInstanceAs (Decidable (_ → _))

end Context

theorem Coin.value_of_isNil {c : Coin} (h : c.isNil = true) : c.value = 0 := by
  unfold isNil at h
  unfold value
  cases hn : c.amount with
  | none => rfl
  | some n =>
    rw [hn] at h
    cases h

theorem Coin.isNil_or_zero (c : Coin) : (c.isNil || decide (c.value = 0)) = decide (c.value = 0) := by
  cases h : c.isNil with
  | true => rw [Coin.value_of_isNil h]; rfl
  | false => rfl

/-- A coin with an amount. -/
theorem Coin.eq_of_value {c : Coin} (h : c.value ≠ 0) : c = ⟨c.denom, some c.value⟩ := by
  obtain ⟨denom, amount⟩ := c
  cases amount with
  | none => exact absurd rfl h
  | some n => rfl

theorem Coin.isValid_iff {denom : String} {n : ℤ} :
    (Coin.mk denom (some n)).isValid = true ↔ validateDenom denom = true ∧ 0 ≤ n := by
  unfold isValid
  rw [Bool.and_eq_true, decide_eq_true_eq]

theorem Coin.value_nonneg {c : Coin} (h : c.isValid = true) : 0 ≤ c.value := by
  obtain ⟨denom, amount⟩ := c
  cases amount with
  | none => exact le_rfl
  | some n => exact (Coin.isValid_iff.mp h).2

theorem Coin.isNil_of_isValid {c : Coin} (h : c.isValid = true) : c.isNil = false := by
  unfold isValid at h
  unfold isNil
  cases hn : c.amount with
  | none =>
    rw [hn, Bool.and_false] at h
    cases h
  | some n => rfl

theorem ClaimRecord.value_of_counts {c : Coin} (h : counts c = true) : c.value ≠ 0 :=
  of_decide_eq_true (Bool.and_eq_true_iff.mp h).2

/-- Something is left of a record that is not empty. -/
theorem ClaimRecord.isEmpty_eq_false : r.isEmpty = false ↔
    r.address ≠ "" ∧ ∃ a, counts (r.amount a) = true := by
  have hcounts : (∃ a, counts (r.amount a) = true) ↔
      (counts r.amountClaim || counts r.amountVote || counts r.amountDelegate) = true := by
    constructor
    · rintro ⟨a, ha⟩
      cases a with
      | claim => rw [show counts r.amountClaim = true from ha, Bool.true_or, Bool.true_or]
      | vote => rw [show counts r.amountVote = true from ha, Bool.or_true, Bool.true_or]
      | delegate => rw [show counts r.amountDelegate = true from ha, Bool.or_true]
    · intro h
      rcases Bool.or_eq_true_iff.mp h with h | h
      · rcases Bool.or_eq_true_iff.mp h with h | h
        · exact ⟨.claim, h⟩
        · exact ⟨.vote, h⟩
      · exact ⟨.delegate, h⟩
  unfold isEmpty
  rw [hcounts, Bool.or_eq_false_iff, Bool.not_eq_false', decide_eq_false_iff_not]

theorem chopPrecisionAndRound_mul_all (n : ℤ) : chopPrecisionAndRound (n * precision) = n := by
  by_cases hn : 0 ≤ n
  · exact chopPrecisionAndRound_mul hn
  · have hneg := chopPrecisionAndRound_mul (n := -n) (by omega)
    have hpos : 0 < -n * precision := Int.mul_pos (by omega) precision_pos
    rw [Int.neg_mul] at hneg hpos
    unfold chopPrecisionAndRound at hneg ⊢
    rw [if_neg (by omega)] at hneg
    rw [if_pos (by omega), hneg, Int.neg_neg]

/-- A quotient of durations, ten thousand times, is far from the limit of the decimals. -/
theorem sub_tdiv_fits (t d : Int64) :
    ((precision - (ofInt t.toInt).tdiv d.toInt) * 10000).natAbs < 2 ^ maxDecBitLen := by
  have ht := t.toInt_lt
  have ht' := t.le_toInt
  have hp : precision = 1000000000000000000 := by decide
  have hquo : ((ofInt t.toInt).tdiv d.toInt).natAbs ≤ 2 ^ 63 * 1000000000000000000 := by
    refine (Int.natAbs_tdiv_le_natAbs (ofInt t.toInt) d.toInt).trans ?_
    unfold ofInt
    rw [Int.natAbs_mul, hp]
    exact Nat.mul_le_mul (by omega) (by decide)
  calc ((precision - (ofInt t.toInt).tdiv d.toInt) * 10000).natAbs
      ≤ 2 ^ 140 := by rw [hp]; omega
    _ < 2 ^ maxDecBitLen := Nat.pow_lt_pow_right (by decide) (by decide)

/-- **The decay of an amount**: it panics when the product is too large and when the coin
that comes out is not valid. -/
theorem decayed_spec {denom : String} {n : ℤ} {t d : Int64} (hd : d ≠ 0) :
    decayed ⟨denom, some n⟩ t d =
      if (n * decayFactor t d).natAbs < 2 ^ 256 then
        newCoin denom ((n * decayFactor t d).tdiv 10000)
      else none := by
  have hfits := sub_tdiv_fits t d
  have hquo : quoInt64 (ofInt t.toInt) d = some ((ofInt t.toInt).tdiv d.toInt) := if_neg hd
  unfold decayed decayFactor
  generalize (ofInt t.toInt).tdiv d.toInt = q at hquo hfits
  have hsub : sub (ofInt 1) q = some (precision - q) := by
    unfold sub
    rw [show ofInt 1 = precision from one_mul _, if_pos (by omega)]
  have hmul : mul (precision - q) (ofInt 10000) = some ((precision - q) * 10000) := by
    have hchop : chopPrecisionAndRound ((precision - q) * ofInt 10000) = (precision - q) * 10000 := by
      rw [show ofInt 10000 = 10000 * precision from rfl, ← mul_assoc]
      exact chopPrecisionAndRound_mul_all _
    unfold mul
    rw [hchop]
    exact if_pos hfits
  simp only [Option.bind_eq_bind, hquo, hsub, hmul, Option.bind_some]

theorem newCoin_eq {denom : String} {n : ℤ} : newCoin denom n =
    if validateDenom denom = true ∧ 0 ≤ n then some ⟨denom, some n⟩ else none := by
  unfold newCoin
  simp only [Coin.isValid_iff]

/-- Nothing is claimable before the start, and of nothing. -/
theorem claimableAmount_nothing
    (h : r.isEmpty = true ∨ ¬ctx.Started ∨ (r.amount a).value = 0) :
    claimableAmount ctx r a = .ok {} := by
  unfold claimableAmount
  refine if_pos ?_
  unfold Context.Started at h
  simp only [Bool.or_eq_true, decide_eq_true_eq, not_le] at h ⊢
  tauto

/-- Before the decay all of it is claimable. -/
theorem Context.worth_full (hs : ctx.Started) (h : ¬ctx.Decaying) (c : Coin) :
    ctx.worth c = c.value := by
  unfold worth factor
  rw [if_neg (not_or.mpr ⟨not_not.mpr hs, fun hended => h hended.1⟩), if_neg h]
  exact Int.mul_tdiv_cancel _ (by decide)

/-- **The amount claimable** once the airdrop has started. -/
theorem claimableAmount_eq (hne : r.isEmpty = false) (hs : ctx.Started)
    (hv : (r.amount a).value ≠ 0) : claimableAmount ctx r a =
      if ctx.Ended then .error (.err .airdropEnded)
      else if ctx.Computes (r.amount a) then
        .ok ⟨(r.amount a).denom, some (ctx.worth (r.amount a))⟩
      else .error .panic := by
  have hcond : (r.isEmpty || decide (ctx.blockTime < ctx.params.airdropStartTime) ||
      (r.amount a).isNil || decide ((r.amount a).value = 0)) = false := by
    rw [hne, Bool.or_assoc, Coin.isNil_or_zero, decide_eq_false hv,
      decide_eq_false (not_lt.mpr hs)]
    rfl
  have hfactor : ¬(¬ctx.Started ∨ ctx.Ended) ↔ ¬ctx.Ended := by
    rw [not_or, not_not, and_iff_right hs]
  have hcoin := Coin.eq_of_value hv
  unfold claimableAmount
  simp only [hcond, Bool.false_eq_true, if_false]
  rw [show timeSub ctx.blockTime ctx.params.airdropStartTime = ctx.elapsed from rfl]
  by_cases hdecay : ctx.Decaying
  swap
  · have hended : ¬ctx.Ended := fun h => hdecay h.1
    have hcomputes : ctx.Computes (r.amount a) := fun h => absurd h hdecay
    rw [if_pos (Int64.not_lt.mp hdecay), if_neg hended, if_pos hcomputes,
      Context.worth_full hs hdecay, ← hcoin]
  rw [if_neg (Int64.not_le.mpr hdecay)]
  by_cases hended : ctx.Ended
  · rw [if_pos hended, if_pos hended.2]
  have hnotyet := fun h => hended ⟨hdecay, h⟩
  rw [if_neg hended, if_neg hnotyet]
  -- a decay that takes no time has ended
  have hd : ctx.params.durationOfDecay ≠ 0 := by
    intro hzero
    rw [hzero, Int64.add_zero] at hnotyet
    exact hnotyet hdecay
  have hfac : ctx.factor =
      decayFactor (ctx.elapsed - ctx.params.durationUntilDecay) ctx.params.durationOfDecay := by
    unfold Context.factor
    rw [if_neg (hfactor.mpr hended), if_pos hdecay]
  have hdecayed : decayed (r.amount a) (ctx.elapsed - ctx.params.durationUntilDecay)
      ctx.params.durationOfDecay =
        if ((r.amount a).value * ctx.factor).natAbs < 2 ^ 256 then
          newCoin (r.amount a).denom (ctx.worth (r.amount a)) else none := by
    unfold Context.worth
    rw [hfac]
    conv_lhs => rw [hcoin]
    exact decayed_spec hd
  rw [hdecayed, newCoin_eq]
  by_cases hc : ctx.Computes (r.amount a)
  · obtain ⟨hdenom, hfits, hpos⟩ := hc hdecay
    rw [if_pos hc, if_pos hfits, if_pos ⟨hdenom, hpos⟩]
  · rw [if_neg hc]
    unfold Context.Computes at hc
    split
    · rename_i coin hsome
      split at hsome
      · split at hsome
        · exact absurd (fun _ => ⟨by tauto, by tauto, by tauto⟩) hc
        · cases hsome
      · cases hsome
    · rfl

end Arkeo.Airdrop
