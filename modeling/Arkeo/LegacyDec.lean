import Mathlib.Tactic.Linarith
import Mathlib.Data.Int.Basic

/-! # 18-digit decimals

A decimal is the integer `10^18` times its value.  A quotient is computed with
36 extra digits, truncated, and cut back to 18 by rounding half to even
(`chopPrecisionAndRound`); it is undefined for a zero divisor, and when the
result needs more than `maxDecBitLen` bits.
-/
namespace LegacyDec

/-- `10^18`. -/
def precision : ℤ := 10 ^ 18

/-- The number of bits a decimal may take. -/
def maxDecBitLen : ℕ := 315

/-- The decimal of an integer. -/
def ofInt (n : ℤ) : ℤ := n * precision

/-- Removes 18 digits of a non-negative integer, rounding half to even. -/
def chopNonneg (x : ℤ) : ℤ :=
  if x % precision < precision / 2 then x / precision
  else if precision / 2 < x % precision then x / precision + 1
  else if (x / precision) % 2 = 0 then x / precision
  else x / precision + 1

/-- Removes 18 digits, rounding half to even; a negative number is rounded as
its absolute value. -/
def chopPrecisionAndRound (x : ℤ) : ℤ :=
  if x < 0 then -chopNonneg (-x) else chopNonneg x

/-- `d.Quo(d2)`; `none` where it panics. -/
def quo (d d2 : ℤ) : Option ℤ :=
  if d2 = 0 then none
  else
    let q := chopPrecisionAndRound ((d * precision ^ 2).tdiv d2)
    if q.natAbs < 2 ^ maxDecBitLen then some q else none

/-- `d.QuoInt64(i)`, truncated; `none` where it panics. -/
def quoInt64 (d : ℤ) (i : Int64) : Option ℤ := if i = 0 then none else some (d.tdiv i.toInt)

/-- `d.Sub(d2)`; `none` where it panics. -/
def sub (d d2 : ℤ) : Option ℤ :=
  if (d - d2).natAbs < 2 ^ maxDecBitLen then some (d - d2) else none

/-- `d.Add(d2)`; `none` where it panics. -/
def add (d d2 : ℤ) : Option ℤ :=
  if (d + d2).natAbs < 2 ^ maxDecBitLen then some (d + d2) else none

/-- `d.TruncateInt()`. -/
def truncateInt (d : ℤ) : ℤ := d.tdiv precision

/-- `d.Mul(d2)`; `none` where it panics. -/
def mul (d d2 : ℤ) : Option ℤ :=
  let q := chopPrecisionAndRound (d * d2)
  if q.natAbs < 2 ^ maxDecBitLen then some q else none

/-- `d.RoundInt()`. -/
def roundInt (d : ℤ) : ℤ := chopPrecisionAndRound d

theorem precision_pos : 0 < precision := by decide

/-- A whole number of units is cut back exactly. -/
theorem chopPrecisionAndRound_mul {n : ℤ} (hn : 0 ≤ n) :
    chopPrecisionAndRound (n * precision) = n := by
  have hnonneg : ¬ n * precision < 0 := by
    have := Int.mul_nonneg hn precision_pos.le
    omega
  rw [chopPrecisionAndRound, if_neg hnonneg, chopNonneg]
  have hmod : n * precision % precision = 0 := Int.mul_emod_left n precision
  have hdiv : n * precision / precision = n := Int.mul_ediv_cancel n precision_pos.ne'
  rw [hmod, hdiv, if_pos (by decide)]

/-- Rounding a non-negative decimal is off by at most one half. -/
theorem roundInt_bounds {x : ℤ} (hx : 0 ≤ x) :
    2 * x - precision ≤ 2 * (precision * roundInt x) ∧
      2 * (precision * roundInt x) ≤ 2 * x + precision := by
  have hdm := Int.mul_ediv_add_emod x precision
  have hlt := Int.emod_lt_of_pos x precision_pos
  have hge := Int.emod_nonneg x precision_pos.ne'
  have hhalf : precision = 2 * (precision / 2) := by decide
  rw [roundInt, chopPrecisionAndRound, if_neg (by omega), chopNonneg]
  split
  · constructor <;> linarith
  · split
    · constructor <;> linarith
    · split
      · constructor <;> linarith
      · constructor <;> linarith

/-- Rounding stays between zero and a whole number. -/
theorem roundInt_mem {x n : ℤ} (hx : 0 ≤ x) (hn : x ≤ n * precision) :
    0 ≤ roundInt x ∧ roundInt x ≤ n := by
  obtain ⟨hlo, hhi⟩ := roundInt_bounds hx
  have hp : precision = 10 ^ 18 := rfl
  rw [hp] at hlo hhi hn
  constructor <;> omega

/-- What is left of one after a part of it was taken away. -/
theorem sub_quoInt64_mem {t : ℤ} {d : Int64} {q c : ℤ} (ht : 0 ≤ t) (htd : t ≤ d.toInt)
    (hq : quoInt64 (ofInt t) d = some q) (hc : sub (ofInt 1) q = some c) :
    0 ≤ c ∧ c ≤ precision := by
  unfold quoInt64 at hq
  unfold sub at hc
  split at hq
  · cases hq
  rename_i hd
  have hpos : 0 < d.toInt := by
    have hne : d.toInt ≠ 0 := fun h => hd (Int64.toInt_inj.mp h)
    omega
  have hnum : 0 ≤ ofInt t := Int.mul_nonneg ht precision_pos.le
  obtain rfl := Option.some.inj hq
  rw [Int.tdiv_eq_ediv_of_nonneg hnum] at hc
  split at hc
  · obtain rfl := Option.some.inj hc
    have hlo : 0 ≤ ofInt t / d.toInt := Int.ediv_nonneg hnum hpos.le
    have hhi : ofInt t / d.toInt ≤ precision := by
      apply Int.ediv_le_of_le_mul hpos
      rw [ofInt, mul_comm precision]
      exact Int.mul_le_mul_of_nonneg_right htd precision_pos.le
    have hone : ofInt 1 = precision := one_mul precision
    rw [hone]
    constructor <;> omega
  · cases hc

theorem add_some {d d2 q : ℤ} (h : add d d2 = some q) : q = d + d2 := by
  unfold add at h
  split at h
  · exact (Option.some.inj h).symm
  · cases h

theorem sub_some {d d2 q : ℤ} (h : sub d d2 = some q) : q = d - d2 := by
  unfold sub at h
  split at h
  · exact (Option.some.inj h).symm
  · cases h

/-- A decimal times a whole number. -/
theorem mul_ofInt {c n q : ℤ} (hc : 0 ≤ c) (hn : 0 ≤ n) (h : mul c (ofInt n) = some q) :
    q = c * n := by
  unfold mul at h
  have hchop : chopPrecisionAndRound (c * ofInt n) = c * n := by
    rw [ofInt, ← mul_assoc]
    exact chopPrecisionAndRound_mul (Int.mul_nonneg hc hn)
  simp only [hchop] at h
  split at h
  · exact (Option.some.inj h).symm
  · cases h

/-! ## Quotients and shares

Rounding a quotient costs half a unit of the last digit, and the truncation before it a
`10^18`-th of one. -/

theorem roundInt_nonneg {x : ℤ} (hx : 0 ≤ x) : 0 ≤ roundInt x := by
  obtain ⟨hlo, -⟩ := roundInt_bounds hx
  have hp : precision = 10 ^ 18 := rfl
  rw [hp] at hlo
  omega

/-- The quotient before it is known to fit. -/
theorem roundInt_tdiv_bounds {a b : ℤ} (ha : 0 ≤ a) (hb : 0 < b) :
    0 ≤ roundInt ((a * precision ^ 2).tdiv b) ∧
      2 * (roundInt ((a * precision ^ 2).tdiv b) * b) ≤ 2 * (a * precision) + b ∧
      2 * (a * precision ^ 2) ≤
        precision * (2 * (roundInt ((a * precision ^ 2).tdiv b) * b) + b) + 2 * b := by
  have hnum : 0 ≤ a * precision ^ 2 := Int.mul_nonneg ha (by decide)
  rw [Int.tdiv_eq_ediv_of_nonneg hnum]
  set w := a * precision ^ 2 / b with hw
  have hw0 : 0 ≤ w := Int.ediv_nonneg hnum hb.le
  have hdm : b * w + a * precision ^ 2 % b = a * precision ^ 2 := Int.mul_ediv_add_emod _ _
  have hmod := Int.emod_lt_of_pos (a * precision ^ 2) hb
  have hmod0 := Int.emod_nonneg (a * precision ^ 2) hb.ne'
  obtain ⟨hlo, hhi⟩ := roundInt_bounds hw0
  have hlo := Int.mul_le_mul_of_nonneg_right hlo hb.le
  have hhi := Int.mul_le_mul_of_nonneg_right hhi hb.le
  have hp : precision = 10 ^ 18 := rfl
  rw [hp] at hlo hhi hdm hmod hmod0 ⊢
  refine ⟨roundInt_nonneg hw0, ?_, ?_⟩
  · linarith
  · linarith

theorem quo_bounds {a b q : ℤ} (ha : 0 ≤ a) (hb : 0 < b) (h : quo a b = some q) :
    0 ≤ q ∧ 2 * (q * b) ≤ 2 * (a * precision) + b ∧
      2 * (a * precision ^ 2) ≤ precision * (2 * (q * b) + b) + 2 * b := by
  unfold quo at h
  rw [if_neg hb.ne'] at h
  simp only at h
  split at h
  · obtain rfl := Option.some.inj h
    exact roundInt_tdiv_bounds ha hb
  · cases h

/-- A quotient that fits is defined. -/
theorem quo_some {a b : ℤ} (ha : 0 ≤ a) (hb : 0 < b)
    (hfit : 2 * (a * precision) + b < 2 ^ (maxDecBitLen + 1) * b) : ∃ q, quo a b = some q := by
  obtain ⟨h0, hle, -⟩ := roundInt_tdiv_bounds ha hb
  unfold quo
  rw [if_neg hb.ne']
  simp only
  rw [if_pos]
  · exact ⟨_, rfl⟩
  · have hlt : roundInt ((a * precision ^ 2).tdiv b) < 2 ^ maxDecBitLen := by
      have hbits : (2 : ℤ) ^ (maxDecBitLen + 1) = 2 * 2 ^ maxDecBitLen := pow_succ' 2 maxDecBitLen
      rw [hbits] at hfit
      by_contra hge
      rw [not_lt] at hge
      have := Int.mul_le_mul_of_nonneg_right hge hb.le
      linarith
    have hcast : ((roundInt ((a * precision ^ 2).tdiv b)).natAbs : ℤ) < 2 ^ maxDecBitLen := by
      rw [Int.natAbs_of_nonneg h0]
      exact hlt
    exact_mod_cast hcast

/-- **A share of an allocation**, `allocation / (total / part)` for a part of the total, is
off by a `10^18`-th of itself and a little more than half of the last digit. -/
theorem share_bounds {allocation total part q v : ℤ} (ha : 0 ≤ allocation) (hp : 0 < part)
    (hpt : part ≤ total) (hq : quo total part = some q) (hv : quo allocation q = some v) :
    0 ≤ v ∧ 2 * (v * total * precision) ≤ 2 * (allocation * part * (precision + 1)) + total * precision ∧
      2 * (allocation * part * (precision - 1)) ≤ 2 * (v * total * precision) +
        total * (precision + 2) := by
  have ht : 0 < total := hp.trans_le hpt
  obtain ⟨-, hq₁, hq₂⟩ := quo_bounds ht.le hp hq
  have hprec : precision = 10 ^ 18 := rfl
  rw [hprec] at hq₁ hq₂ ⊢
  have hq0 : 0 < q := by
    by_contra hle
    rw [not_lt] at hle
    have := Int.mul_nonpos_of_nonpos_of_nonneg hle hp.le
    linarith
  obtain ⟨hv0, hv₁, hv₂⟩ := quo_bounds ha hq0 hv
  rw [hprec] at hv₁ hv₂
  refine ⟨hv0, ?_, ?_⟩
  · have hpart := Int.mul_nonneg ha hp.le
    rcases hv0.eq_or_lt with rfl | hpos
    · linarith
    · -- `(2v - 1) * q` is at most `2 * allocation`, and `q` is nearly `total / part`
      have hodd : 0 ≤ 2 * v - 1 := by omega
      have h₁ : (2 * v - 1) * (total * (2 * 10 ^ 36 - 10 ^ 18 - 2)) ≤
          (2 * v - 1) * (2 * 10 ^ 18 * (q * part)) :=
        Int.mul_le_mul_of_nonneg_left (by linarith) hodd
      have h₂ := Int.mul_le_mul_of_nonneg_right hv₁ hp.le
      linarith
  · have h₁ := Int.mul_le_mul_of_nonneg_right hv₂ hp.le
    have hfac : 0 ≤ 2 * 10 ^ 18 * v + (10 ^ 18 + 2) := by omega
    have h₂ : (2 * (q * part)) * (2 * 10 ^ 18 * v + (10 ^ 18 + 2)) ≤
        (total * (2 * 10 ^ 18 + 1)) * (2 * 10 ^ 18 * v + (10 ^ 18 + 2)) :=
      Int.mul_le_mul_of_nonneg_right (by linarith) hfac
    have h₃ := Int.mul_nonneg hv0 ht.le
    linarith

/-- A quotient by a part of the total is one at least. -/
theorem one_le_quo {total part q : ℤ} (hp : 0 < part) (hpt : part ≤ total)
    (hq : quo total part = some q) : precision ≤ q := by
  obtain ⟨-, -, hq⟩ := quo_bounds (hp.le.trans hpt) hp hq
  have hprec : precision = 10 ^ 18 := rfl
  rw [hprec] at hq ⊢
  by_contra hlt
  have := Int.mul_le_mul_of_nonneg_right (show q ≤ 10 ^ 18 - 1 by omega) hp.le
  linarith

/-- A share is no more than the allocation. -/
theorem share_le {allocation total part q v : ℤ} (ha : 0 ≤ allocation) (hp : 0 < part)
    (hpt : part ≤ total) (hq : quo total part = some q) (hv : quo allocation q = some v) :
    v ≤ allocation := by
  have hone := one_le_quo hp hpt hq
  have hprec : precision = 10 ^ 18 := rfl
  rw [hprec] at hone
  obtain ⟨-, hv, -⟩ := quo_bounds ha (by omega) hv
  rw [hprec] at hv
  by_contra hlt
  have h₁ := Int.mul_le_mul_of_nonneg_right (show allocation + 1 ≤ v by omega)
    (show 0 ≤ q by omega)
  have h₂ := Int.mul_le_mul_of_nonneg_left hone ha
  linarith

end LegacyDec
