import Mathlib.Tactic.Linarith
import Mathlib.Data.Rat.Floor
import Arkeo.Rounding
import Arkeo.Airdrop.Claimable

/-! # The decay of the airdrop

What a record is worth for an action, as a function of the time (`worthAt`): all of the
amount up to the decay, then so many ten-thousandths of it (`tenThousandths`), and nothing
at the end.  The ten-thousandths come out of a quotient of 18 digits and are rounded half to
even, and the amount is rounded down, so the curve falls in steps and stays close to the
straight line (`linearDecay`).

The curve is there for amounts that ten thousand times still fit into 256 bits; on larger
ones the product panics.
-/
namespace Arkeo.Airdrop
open Exec LegacyDec

/-! ## The curve -/

/-- How much is left of an amount, of ten thousand. -/
def tenThousandths (decayTime durationOfDecay : ℤ) : ℤ :=
  roundInt ((precision - ofInt decayTime / durationOfDecay) * 10000)

section
variable {t t' d : ℤ}

theorem quotient_bounds (h0 : 0 ≤ t) (htd : t ≤ d) (hd : 0 < d) :
    0 ≤ ofInt t / d ∧ ofInt t / d ≤ precision := by
  refine ⟨Int.ediv_nonneg (Int.mul_nonneg h0 precision_pos.le) hd.le, ?_⟩
  apply Int.ediv_le_of_le_mul hd
  rw [ofInt, mul_comm precision]
  exact Int.mul_le_mul_of_nonneg_right htd precision_pos.le

theorem tenThousandths_mem (h0 : 0 ≤ t) (htd : t ≤ d) (hd : 0 < d) :
    0 ≤ tenThousandths t d ∧ tenThousandths t d ≤ 10000 := by
  obtain ⟨hq0, hq1⟩ := quotient_bounds h0 htd hd
  exact roundInt_mem (by omega) (by omega)

/-- Later, less is left. -/
theorem tenThousandths_anti (htt : t ≤ t') (htd : t' ≤ d) (h0 : 0 ≤ t) (hd : 0 < d) :
    tenThousandths t' d ≤ tenThousandths t d := by
  have hq : ofInt t / d ≤ ofInt t' / d :=
    Int.ediv_le_ediv hd (Int.mul_le_mul_of_nonneg_right htt precision_pos.le)
  have hq1 := (quotient_bounds (h0.trans htt) htd hd).2
  exact roundInt_mono (by omega) (by omega)

theorem tenThousandths_self (hd : 0 < d) : tenThousandths d d = 0 := by
  unfold tenThousandths ofInt
  rw [Int.mul_ediv_cancel_left _ hd.ne', sub_self, zero_mul]
  decide

/-- Half of a ten-thousandth is lost by the rounding, and less than that by the digits of
the quotient. -/
theorem tenThousandths_near (h0 : 0 ≤ t) (htd : t ≤ d) (hd : 0 < d) :
    |(tenThousandths t d : ℚ) / 10000 - (d - t) / d| ≤ 1 / 10000 := by
  obtain ⟨-, hq1⟩ := quotient_bounds h0 htd hd
  have hdiv := Int.mul_ediv_add_emod (ofInt t) d
  have hlt := Int.emod_lt_of_pos (ofInt t) hd
  have hge := Int.emod_nonneg (ofInt t) hd.ne'
  have hround := isRound_roundInt (x := (precision - ofInt t / d) * 10000) (by omega)
  obtain ⟨hlo, hhi, -⟩ := hround
  change 2 * (tenThousandths t d * precision) - precision ≤ _ at hlo
  change _ ≤ 2 * (tenThousandths t d * precision) + precision at hhi
  generalize tenThousandths t d = m at *
  generalize ofInt t / d = q at *
  have hp : precision = 1000000000000000000 := by decide
  unfold ofInt at hdiv hlt hge
  rw [hp] at hdiv hlt hge hlo hhi hq1
  have hd' : (0 : ℚ) < d := by exact_mod_cast hd
  -- the quotient, as a rational, is just below the share of the time that has passed
  have hql : (q : ℚ) ≤ t / d * 1000000000000000000 := by
    rw [div_mul_eq_mul_div, le_div_iff₀ hd']
    have : q * d ≤ t * 1000000000000000000 := by rw [mul_comm q]; omega
    exact_mod_cast this
  have hqu : t / d * 1000000000000000000 ≤ (q : ℚ) + 1 := by
    rw [div_mul_eq_mul_div, div_le_iff₀ hd']
    have : t * 1000000000000000000 ≤ (q + 1) * d := by rw [add_mul, mul_comm q]; omega
    exact_mod_cast this
  have hlo' : 2 * ((m : ℚ) * 1000000000000000000) - 1000000000000000000 ≤
      2 * ((1000000000000000000 - q) * 10000) := by exact_mod_cast hlo
  have hhi' : 2 * (((1000000000000000000 : ℚ) - q) * 10000) ≤
      2 * (m * 1000000000000000000) + 1000000000000000000 := by exact_mod_cast hhi
  have hshare : ((d : ℚ) - t) / d = 1 - t / d := by
    rw [sub_div, div_self hd'.ne']
  rw [hshare, abs_le]
  constructor <;> linarith

end

/-! ## The amount -/

variable {r : ClaimRecord} {a : Action} {p : Params}

/-- Durations as an airdrop has them. -/
structure Params.Sane (p : Params) : Prop where
  until_nonneg : 0 ≤ p.durationUntilDecay.toInt
  decay_nonneg : 0 ≤ p.durationOfDecay.toInt
  fits : p.durationUntilDecay.toInt + p.durationOfDecay.toInt < 2 ^ 63

/-- The record has an address, and for the action nothing, a zero, or a coin whose amount
ten thousand times fits into 256 bits. -/
def ClaimRecord.Regular (r : ClaimRecord) (a : Action) : Prop :=
  r.address ≠ "" ∧ ((r.amount a).value = 0 ∨
    (r.amount a).isValid = true ∧ (r.amount a).value * 10000 < 2 ^ 256)

/-- What a record is worth for an action at a time; nothing once the airdrop has ended,
`none` where the code panics. -/
def worthAt (p : Params) (r : ClaimRecord) (a : Action) (time : ℤ) : Option ℤ :=
  match claimableAmount ⟨p, time⟩ r a with
  | .ok coin => some coin.value
  | .error (.err _) => some 0
  | .error .panic => none

/-- The straight line from an amount down to nothing, over the time of the decay. -/
def linearDecay (p : Params) (amount time : ℤ) : ℚ :=
  let elapsed := time - p.airdropStartTime
  if elapsed ≤ p.durationUntilDecay.toInt then amount
  else if p.durationUntilDecay.toInt + p.durationOfDecay.toInt < elapsed then 0
  else amount * ((p.durationUntilDecay.toInt + p.durationOfDecay.toInt - elapsed) /
    p.durationOfDecay.toInt)

/-- The curve of the code, by the time that has passed. -/
def curve (p : Params) (amount elapsed : ℤ) : ℤ :=
  if elapsed ≤ p.durationUntilDecay.toInt then amount
  else if p.durationUntilDecay.toInt + p.durationOfDecay.toInt < elapsed then 0
  else amount * tenThousandths (elapsed - p.durationUntilDecay.toInt) p.durationOfDecay.toInt / 10000

theorem timeSub_toInt (t u : ℤ) :
    (timeSub t u).toInt = max (-2 ^ 63) (min (2 ^ 63 - 1) (t - u)) :=
  Int64.toInt_ofInt_of_le (by omega) (by omega)

theorem Params.Sane.sum_toInt (hp : p.Sane) : (p.durationUntilDecay + p.durationOfDecay).toInt =
    p.durationUntilDecay.toInt + p.durationOfDecay.toInt := by
  obtain ⟨h1, h2, h3⟩ := hp
  rw [Int64.toInt_add]
  exact Int.bmod_eq_of_le (by omega) (by omega)

section
variable {ctx : Context}

theorem Context.ended_iff (hp : ctx.params.Sane) : ctx.Ended ↔
    ctx.params.durationUntilDecay.toInt + ctx.params.durationOfDecay.toInt < ctx.elapsed.toInt := by
  have hd := hp.decay_nonneg
  unfold Ended Decaying
  rw [Int64.lt_iff_toInt_lt, Int64.lt_iff_toInt_lt, hp.sum_toInt]
  omega

/-- The factor of the decay, when the time is not negative. -/
theorem decayFactor_eq {t d : Int64} (h0 : 0 ≤ t.toInt) :
    decayFactor t d = tenThousandths t.toInt d.toInt := by
  have hnum : 0 ≤ ofInt t.toInt := Int.mul_nonneg h0 precision_pos.le
  unfold decayFactor tenThousandths
  rw [Int.tdiv_eq_ediv_of_nonneg hnum]

/-- While the amount decays, the factor is the number of ten-thousandths that are left. -/
theorem Context.factor_decaying (hp : ctx.params.Sane) (hs : ctx.Started) (hdec : ctx.Decaying)
    (hend : ¬ctx.Ended) :
    ctx.factor = tenThousandths (ctx.elapsed.toInt - ctx.params.durationUntilDecay.toInt)
      ctx.params.durationOfDecay.toInt ∧ 0 ≤ ctx.factor ∧ ctx.factor ≤ 10000 := by
  have hu := hp.until_nonneg
  have hlt := ctx.elapsed.toInt_lt
  have hdec' := Int64.lt_iff_toInt_lt.mp hdec
  have hend' := mt (ended_iff hp).mpr hend
  have hsub : (ctx.elapsed - ctx.params.durationUntilDecay).toInt =
      ctx.elapsed.toInt - ctx.params.durationUntilDecay.toInt := by
    rw [Int64.toInt_sub]
    exact Int.bmod_eq_of_le (by omega) (by omega)
  have hfactor : ctx.factor = tenThousandths
      (ctx.elapsed.toInt - ctx.params.durationUntilDecay.toInt)
        ctx.params.durationOfDecay.toInt := by
    unfold factor
    rw [if_neg (not_or.mpr ⟨not_not.mpr hs, hend⟩), if_pos hdec,
      decayFactor_eq (by rw [hsub]; omega), hsub]
  rw [hfactor]
  exact ⟨rfl, tenThousandths_mem (by omega) (by omega) (by omega)⟩

/-- **What is claimable** is the curve, at the time that has passed. -/
theorem Context.worth_eq_curve (hp : ctx.params.Sane) (hs : ctx.Started) {c : Coin}
    (h0 : 0 ≤ c.value) : ctx.worth c = curve ctx.params c.value ctx.elapsed.toInt := by
  unfold curve
  by_cases hdec : ctx.Decaying
  · rw [if_neg (Int.not_le.mpr (Int64.lt_iff_toInt_lt.mp hdec))]
    by_cases hend : ctx.Ended
    · rw [if_pos ((ended_iff hp).mp hend), worth, factor, if_pos (.inr hend), mul_zero]
      rfl
    · obtain ⟨hfactor, hpos, -⟩ := factor_decaying hp hs hdec hend
      rw [if_neg (mt (ended_iff hp).mpr hend), ← hfactor]
      exact Int.tdiv_eq_ediv_of_nonneg (Int.mul_nonneg h0 hpos)
  · rw [if_pos (Int.not_lt.mp (mt Int64.lt_iff_toInt_lt.mpr hdec)), worth_full hs hdec]

end

theorem ClaimRecord.Regular.nonneg (hr : r.Regular a) : 0 ≤ (r.amount a).value := by
  rcases hr.2 with hzero | ⟨hv, -⟩
  · exact hzero.ge
  · exact Coin.value_nonneg hv

/-- **What the code computes** is the curve, at the time that has passed as far as it can
be counted. -/
theorem worthAt_eq (hp : p.Sane) (hr : r.Regular a) {time : ℤ} (hstart : p.airdropStartTime ≤ time) :
    worthAt p r a time =
      some (curve p (r.amount a).value (min (2 ^ 63 - 1) (time - p.airdropStartTime))) := by
  have hs : (⟨p, time⟩ : Context).Started := hstart
  have helapsed : (⟨p, time⟩ : Context).elapsed.toInt =
      min (2 ^ 63 - 1) (time - p.airdropStartTime) := by
    change (timeSub time p.airdropStartTime).toInt = _
    rw [timeSub_toInt]
    omega
  have hcurve : (⟨p, time⟩ : Context).worth (r.amount a) =
      curve p (r.amount a).value (⟨p, time⟩ : Context).elapsed.toInt :=
    Context.worth_eq_curve hp hs hr.nonneg
  rw [helapsed] at hcurve
  unfold worthAt
  by_cases hzero : (r.amount a).value = 0
  · rw [claimableAmount_nothing (.inr (.inr hzero)), ← hcurve, Context.worth, hzero, zero_mul]
    rfl
  obtain ⟨hv, hfits⟩ := hr.2.resolve_left hzero
  have hne : r.isEmpty = false :=
    ClaimRecord.isEmpty_eq_false.mpr ⟨hr.1, a, by rw [ClaimRecord.counts, hv]; exact decide_eq_true hzero⟩
  rw [claimableAmount_eq hne hs hzero, ← hcurve]
  by_cases hend : (⟨p, time⟩ : Context).Ended
  · rw [if_pos hend, Context.worth, Context.factor, if_pos (.inr hend), mul_zero]
    rfl
  have hcomputes : (⟨p, time⟩ : Context).Computes (r.amount a) := by
    intro hdec
    have hsane : (⟨p, time⟩ : Context).params.Sane := hp
    obtain ⟨-, hpos, hle⟩ := Context.factor_decaying hsane hs hdec hend
    have hprod := Int.mul_nonneg hr.nonneg hpos
    have hmax := Int.mul_le_mul_of_nonneg_left hle hr.nonneg
    exact ⟨(Bool.and_eq_true_iff.mp hv).1, by omega, Int.tdiv_nonneg hprod (by decide)⟩
  rw [if_neg hend, if_pos hcomputes]
  rfl

/-! ## The shape of the curve -/

section
variable {amount e e' : ℤ}

theorem curve_mem (hp : p.Sane) (h0 : 0 ≤ amount) :
    0 ≤ curve p amount e ∧ curve p amount e ≤ amount := by
  obtain ⟨hu, hd, -⟩ := hp
  unfold curve
  split
  · exact ⟨h0, le_rfl⟩
  split
  · exact ⟨le_rfl, h0⟩
  obtain ⟨hm0, hm1⟩ := tenThousandths_mem (t := e - p.durationUntilDecay.toInt)
    (d := p.durationOfDecay.toInt) (by omega) (by omega) (by omega)
  refine ⟨Int.ediv_nonneg (Int.mul_nonneg h0 hm0) (by decide), ?_⟩
  exact Int.ediv_le_of_le_mul (by decide) (Int.mul_le_mul_of_nonneg_left hm1 h0)

/-- The curve falls. -/
theorem curve_anti (hp : p.Sane) (h0 : 0 ≤ amount) (hee : e ≤ e') :
    curve p amount e' ≤ curve p amount e := by
  by_cases hfull : e ≤ p.durationUntilDecay.toInt
  · rw [show curve p amount e = amount from if_pos hfull]
    exact (curve_mem hp h0).2
  by_cases hended : p.durationUntilDecay.toInt + p.durationOfDecay.toInt < e'
  · rw [show curve p amount e' = 0 by
      unfold curve
      rw [if_neg (by have := hp.decay_nonneg; omega), if_pos hended]]
    exact (curve_mem hp h0).1
  obtain ⟨hu, hd, -⟩ := hp
  unfold curve
  rw [if_neg (by omega), if_neg hended, if_neg hfull, if_neg (by omega)]
  refine Int.ediv_le_ediv (by decide) (Int.mul_le_mul_of_nonneg_left ?_ h0)
  exact tenThousandths_anti (by omega) (by omega) (by omega) (by omega)

/-- The curve is near the straight line. -/
theorem curve_near (hp : p.Sane) (h0 : 0 ≤ amount) {time : ℤ}
    (hcount : time - p.airdropStartTime < 2 ^ 63 ∨ p.durationUntilDecay.toInt < 2 ^ 63 - 1) :
    |(curve p amount (min (2 ^ 63 - 1) (time - p.airdropStartTime)) : ℚ) -
      linearDecay p amount time| ≤ amount / 10000 + 1 := by
  obtain ⟨hu, hd, hsum⟩ := hp
  have h0' : (0 : ℚ) ≤ amount := by exact_mod_cast h0
  have hself : |(0 : ℚ)| ≤ amount / 10000 + 1 := by
    rw [abs_zero]
    linarith
  unfold curve linearDecay
  by_cases hfull : time - p.airdropStartTime ≤ p.durationUntilDecay.toInt
  · rw [if_pos (by omega), if_pos hfull, sub_self]
    exact hself
  rw [if_neg (by omega), if_neg hfull]
  by_cases hended : p.durationUntilDecay.toInt + p.durationOfDecay.toInt < time - p.airdropStartTime
  · rw [if_pos hended]
    -- past the longest duration the time stands still, at the end of the decay or after it
    by_cases hlate : p.durationUntilDecay.toInt + p.durationOfDecay.toInt <
        min (2 ^ 63 - 1) (time - p.airdropStartTime)
    · rw [if_pos hlate, Int.cast_zero, sub_self]
      exact hself
    · have hstuck : min (2 ^ 63 - 1) (time - p.airdropStartTime) - p.durationUntilDecay.toInt =
          p.durationOfDecay.toInt := by omega
      rw [if_neg hlate, hstuck, tenThousandths_self (by omega), mul_zero, Int.zero_ediv,
        Int.cast_zero, sub_self]
      exact hself
  have hnear := tenThousandths_near (t := time - p.airdropStartTime - p.durationUntilDecay.toInt)
    (d := p.durationOfDecay.toInt) (by omega) (by omega) (by omega)
  rw [if_neg (by omega), if_neg hended, min_eq_right (by omega)]
  generalize tenThousandths (time - p.airdropStartTime - p.durationUntilDecay.toInt)
    p.durationOfDecay.toInt = m at hnear ⊢
  have hlo : amount * m / 10000 * 10000 ≤ amount * m := Int.ediv_mul_le _ (by decide)
  have hhi : amount * m < (amount * m / 10000 + 1) * 10000 := Int.lt_ediv_add_one_mul_self _ (by decide)
  have hlo' : ((amount * m / 10000 : ℤ) : ℚ) * 10000 ≤ amount * m := by exact_mod_cast hlo
  have hhi' : (amount : ℚ) * m ≤ ((amount * m / 10000 : ℤ) + 1) * 10000 := by exact_mod_cast hhi.le
  push_cast at hnear
  have hline : ((p.durationUntilDecay.toInt : ℚ) + p.durationOfDecay.toInt -
        ((time - p.airdropStartTime : ℤ) : ℚ)) / p.durationOfDecay.toInt =
      (p.durationOfDecay.toInt - (time - p.airdropStartTime - p.durationUntilDecay.toInt)) /
        p.durationOfDecay.toInt := by
    push_cast
    ring
  rw [hline]
  generalize ((p.durationOfDecay.toInt : ℚ) - (time - p.airdropStartTime -
    p.durationUntilDecay.toInt)) / p.durationOfDecay.toInt = share at hnear ⊢
  obtain ⟨hl, hh⟩ := abs_le.mp hnear
  have hl' := mul_le_mul_of_nonneg_left hl h0'
  have hh' := mul_le_mul_of_nonneg_left hh h0'
  rw [abs_le]
  constructor <;> linarith

end

/-- **The decay curve.**  For a regular record the code returns a value at every time from
the start on: all of the amount up to the decay, never more and never less than zero, falling,
and near the straight line.  The last needs that the time can be counted. -/
theorem decay_curve (hp : p.Sane) (hr : r.Regular a) {time : ℤ} (hstart : p.airdropStartTime ≤ time) :
    ∃ worth, worthAt p r a time = some worth ∧ 0 ≤ worth ∧ worth ≤ (r.amount a).value ∧
      (time - p.airdropStartTime ≤ p.durationUntilDecay.toInt → worth = (r.amount a).value) ∧
      (time - p.airdropStartTime < 2 ^ 63 ∨ p.durationUntilDecay.toInt < 2 ^ 63 - 1 →
        |(worth : ℚ) - linearDecay p (r.amount a).value time| ≤ (r.amount a).value / 10000 + 1) ∧
      ∀ later worth', time ≤ later → worthAt p r a later = some worth' → worth' ≤ worth := by
  have hn := hr.nonneg
  obtain ⟨h0, h1⟩ := curve_mem (e := min (2 ^ 63 - 1) (time - p.airdropStartTime)) hp hn
  refine ⟨_, worthAt_eq hp hr hstart, h0, h1, ?_, curve_near hp hn, ?_⟩
  · intro hfull
    have hu := p.durationUntilDecay.toInt_lt
    exact if_pos (by omega)
  · intro later worth' hlater hworth
    rw [worthAt_eq hp hr (hstart.trans hlater)] at hworth
    obtain rfl := Option.some.inj hworth
    exact curve_anti hp hn (by omega)

namespace Sample

def record : ClaimRecord :=
  { address := holder, amountClaim := coins 10, amountVote := coins 5, amountDelegate := coins 3 }

/-- Half-way through the decay ten coins are worth between nothing and all of them. -/
theorem decay_at_half : ∃ worth, worthAt ctx.params record .claim 150 = some worth ∧ 0 ≤ worth ∧
    worth ≤ 10 := by
  have hp : ctx.params.Sane := ⟨by decide, by decide, by decide⟩
  have hr : record.Regular .claim := ⟨by decide, .inr ⟨by decide, by decide⟩⟩
  have hstart : ctx.params.airdropStartTime ≤ 150 := by decide
  obtain ⟨worth, hworth, h0, h1, -⟩ := decay_curve hp hr hstart
  exact ⟨worth, hworth, h0, h1⟩

/-- A decay of one second from the start on. -/
def atOnce : Params where
  airdropStartTime := 0
  durationUntilDecay := 0
  durationOfDecay := 1000000000

/-- No decay, after the longest wait there is. -/
def never : Params where
  airdropStartTime := 0
  durationUntilDecay := 9223372036854775807
  durationOfDecay := 0

/-- **Where there is no curve**: the product of an amount near the limit panics in the first
nanosecond of the decay, an amount without a denomination is worth nothing from the start,
and past the longest duration that can be counted nothing ever ends. -/
theorem no_curve :
    (atOnce.Sane ∧ worthAt atOnce { record with amountClaim := coins (2 ^ 255) } .claim 1 = none) ∧
    (atOnce.Sane ∧ worthAt atOnce { address := holder, amountClaim := ⟨"", some 10⟩ } .claim 0 = some 0) ∧
    never.Sane ∧ worthAt never record .claim (2 ^ 63) = some 10 ∧
      linearDecay never 10 (2 ^ 63) = 0 := by
  refine ⟨⟨⟨by decide, by decide, by decide⟩, by decide +kernel⟩,
    ⟨⟨by decide, by decide, by decide⟩, by decide⟩, ⟨by decide, by decide, by decide⟩, by decide, ?_⟩
  unfold linearDecay
  rw [if_neg (by decide), if_pos (by decide)]

end Sample

end Arkeo.Airdrop
