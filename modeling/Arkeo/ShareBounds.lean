import Mathlib.Algebra.BigOperators.Group.List.Basic
import Mathlib.Algebra.Order.BigOperators.Group.List
import Mathlib.Algebra.BigOperators.Ring.Finset
import Mathlib.Algebra.BigOperators.Ring.List
import Mathlib.Algebra.Order.Field.Rat
import Mathlib.Tactic.FieldSimp
import Mathlib.Tactic.Positivity
import Arkeo.Rounding
import Arkeo.Shares

/-! # How good a share is

The values of the decimals are rational numbers.  A share lies between nothing and the
allocation, grows with the part, and is off from the exact one by a `10^18`-th of it and one
unit of the last digit, unless a quotient overflows; then it is nothing.  The errors of many
shares add up, and no more than them is given away beyond the allocation.
-/
namespace Arkeo
open LegacyDec

variable {part part' total allocation : ℤ}

/-- The value of a decimal. -/
def decimal (d : ℤ) : ℚ := d / 10 ^ 18

/-- `allocation * min(part, total) / total`. -/
def exactShare (part total allocation : ℤ) : ℚ :=
  decimal allocation * decimal (min part total) / decimal total

/-- A relative error and an absolute one, of `10^-18` each. -/
def shareError (part total allocation : ℤ) : ℚ :=
  exactShare part total allocation / 10 ^ 18 + 1 / 10 ^ 18

/-- No quotient of the share overflows: there is nothing to divide, or both are defined. -/
def NoOverflow (part total allocation : ℤ) : Prop :=
  min part total = 0 ∨
    ∃ q v, quo total (min part total) = some q ∧ quo allocation q = some v

/-! ## Between nothing and the allocation -/

theorem getSafeShare_of_min_eq_zero (h : min part total = 0) :
    getSafeShare part total allocation = 0 := by
  rw [getSafeShare_eq, h]
  exact if_pos (.inl rfl)

theorem getSafeShare_mem (hp : 0 ≤ part) (ht : 0 ≤ total) (ha : 0 ≤ allocation) :
    0 ≤ getSafeShare part total allocation ∧ getSafeShare part total allocation ≤ allocation := by
  rcases ht.eq_or_lt with h0 | hpos
  · rw [getSafeShare_of_min_eq_zero (by omega)]
    exact ⟨le_rfl, ha⟩
  · exact ⟨(getSafeShare_le ha hp hpos).1, getSafeShare_le_allocation ha hp hpos⟩

/-! ## Growing with the part -/

theorem getSafeShare_of_quo {q v : ℤ} (hm : min part total ≠ 0) (ht : total ≠ 0)
    (hq : quo total (min part total) = some q) (hv : quo allocation q = some v) :
    getSafeShare part total allocation = v := by
  rw [getSafeShare_eq, getUncappedShare, if_neg (not_or.mpr ⟨hm, ht⟩), hq, Option.bind_some, hv,
    Option.getD_some]

theorem getSafeShare_mono (hp : 0 ≤ part) (hpp : part ≤ part') (ht : 0 < total)
    (ha : 0 ≤ allocation) (h : NoOverflow part total allocation)
    (h' : NoOverflow part' total allocation) :
    getSafeShare part total allocation ≤ getSafeShare part' total allocation := by
  have hmin : min part total ≤ min part' total := min_le_min_right total hpp
  rcases h with h0 | ⟨q, v, hq, hv⟩
  · rw [getSafeShare_of_min_eq_zero h0]
    exact (getSafeShare_mem (hp.trans hpp) ht.le ha).1
  · have hpos : 0 < min part total :=
      lt_of_le_of_ne (le_min hp ht.le) (Ne.symm (quo_eq hq).1)
    rcases h' with h0 | ⟨q', v', hq', hv'⟩
    · omega
    · rw [getSafeShare_of_quo hpos.ne' ht.ne' hq hv,
        getSafeShare_of_quo (hpos.trans_le hmin).ne' ht.ne' hq' hv']
      have hone := one_le_quo (hpos.trans_le hmin) (min_le_right _ _) hq'
      have hqq := quo_antitone ht.le hpos hmin hq hq'
      exact quo_antitone ha (precision_pos.trans_le hone) hqq hv' hv

/-! ## The error -/

/-- The exact share in units of the last digit. -/
theorem exactShare_eq (part allocation : ℤ) (ht : 0 < total) :
    exactShare part total allocation * 10 ^ 18 * total = allocation * (min part total : ℤ) := by
  have htq : (total : ℚ) ≠ 0 := by exact_mod_cast ht.ne'
  unfold exactShare decimal
  field_simp

/-- A share is never much too large. -/
theorem decimal_getSafeShare_le (hp : 0 ≤ part) (ht : 0 < total) (ha : 0 ≤ allocation) :
    decimal (getSafeShare part total allocation) ≤
      exactShare part total allocation + shareError part total allocation := by
  have h := (getSafeShare_le ha hp ht).2
  have htq : (0 : ℚ) < total := by exact_mod_cast ht
  have hexact := exactShare_eq part allocation ht
  have hprec : precision = 10 ^ 18 := rfl
  rw [hprec] at h
  have hq : 2 * ((getSafeShare part total allocation : ℚ) * total * 10 ^ 18) ≤
      2 * (allocation * (min part total : ℤ) * (10 ^ 18 + 1)) + total * 10 ^ 18 := by
    exact_mod_cast h
  rw [← hexact] at hq
  -- the total cancels
  have hcancel : 2 * ((getSafeShare part total allocation : ℚ) * 10 ^ 18) ≤
      2 * (exactShare part total allocation * 10 ^ 18 * (10 ^ 18 + 1)) + 10 ^ 18 := by
    refine le_of_mul_le_mul_right ?_ htq
    linarith
  unfold decimal shareError
  linarith

/-- A share is not much too small, when nothing overflows. -/
theorem le_decimal_getSafeShare (ht : 0 < total) (ha : 0 ≤ allocation) (hp : 0 ≤ part)
    (h : NoOverflow part total allocation) :
    exactShare part total allocation ≤
      decimal (getSafeShare part total allocation) + shareError part total allocation := by
  have htq : (0 : ℚ) < total := by exact_mod_cast ht
  have hexact := exactShare_eq part allocation ht
  rcases h with h0 | ⟨q, v, hq, hv⟩
  · rw [h0, Int.cast_zero, mul_zero] at hexact
    have hzero : exactShare part total allocation = 0 := by
      rcases mul_eq_zero.mp hexact with h | h
      · linarith
      · exact absurd h htq.ne'
    rw [getSafeShare_of_min_eq_zero h0]
    unfold decimal shareError
    rw [hzero]
    norm_num
  · have hpos : 0 < min part total :=
      lt_of_le_of_ne (le_min hp ht.le) (Ne.symm (quo_eq hq).1)
    obtain ⟨-, -, hlo⟩ := share_bounds ha hpos (min_le_right _ _) hq hv
    have hprec : precision = 10 ^ 18 := rfl
    rw [hprec] at hlo
    have hq : 2 * ((allocation : ℚ) * (min part total : ℤ) * (10 ^ 18 - 1)) ≤
        2 * (v * total * 10 ^ 18) + total * (10 ^ 18 + 2) := by
      exact_mod_cast hlo
    rw [← hexact] at hq
    have hcancel : 2 * (exactShare part total allocation * 10 ^ 18 * (10 ^ 18 - 1)) ≤
        2 * ((v : ℚ) * 10 ^ 18) + (10 ^ 18 + 2) := by
      refine le_of_mul_le_mul_right ?_ htq
      linarith
    rw [getSafeShare_of_quo hpos.ne' ht.ne' ‹_› hv]
    unfold decimal shareError
    linarith

/-! ## Many shares -/

/-- The exact shares of parts of the total make up no more than the allocation. -/
theorem sum_exactShare_le (ht : 0 < total) (ha : 0 ≤ allocation) {parts : List ℤ}
    (hsum : parts.sum ≤ total) :
    (parts.map fun part => exactShare part total allocation).sum ≤ decimal allocation := by
  have htq : (0 : ℚ) < total := by exact_mod_cast ht
  have haq : (0 : ℚ) ≤ decimal allocation := by
    have : (0 : ℚ) ≤ allocation := by exact_mod_cast ha
    unfold decimal
    positivity
  have hle : ∀ part ∈ parts,
      exactShare part total allocation ≤ decimal allocation / total * (part : ℚ) := by
    intro part _
    have hmin : ((min part total : ℤ) : ℚ) ≤ part := by exact_mod_cast min_le_left part total
    have heq : exactShare part total allocation =
        decimal allocation / total * ((min part total : ℤ) : ℚ) := by
      unfold exactShare decimal
      field_simp
    rw [heq]
    exact mul_le_mul_of_nonneg_left hmin (div_nonneg haq htq.le)
  calc (parts.map fun part => exactShare part total allocation).sum
      ≤ (parts.map fun part : ℤ => decimal allocation / total * (part : ℚ)).sum :=
        List.sum_le_sum hle
    _ = decimal allocation / total * (parts.sum : ℤ) := by
        rw [List.sum_map_mul_left, Int.cast_list_sum]
    _ ≤ decimal allocation / total * total := by
        apply mul_le_mul_of_nonneg_left _ (div_nonneg haq htq.le)
        exact_mod_cast hsum
    _ = decimal allocation := div_mul_cancel₀ _ htq.ne'

theorem sum_getSafeShare_le (ht : 0 < total) (ha : 0 ≤ allocation) {parts : List ℤ}
    (hparts : ∀ part ∈ parts, 0 ≤ part) (hsum : parts.sum ≤ total) :
    decimal (parts.map fun part => getSafeShare part total allocation).sum ≤
      decimal allocation + (parts.map fun part => shareError part total allocation).sum := by
  have hdecimal : decimal (parts.map fun part => getSafeShare part total allocation).sum =
      (parts.map fun part => decimal (getSafeShare part total allocation)).sum := by
    unfold decimal
    simp only [div_eq_mul_inv]
    rw [List.sum_map_mul_right, Int.cast_list_sum, List.map_map]
    rfl
  have hle : ∀ part ∈ parts, decimal (getSafeShare part total allocation) ≤
      exactShare part total allocation + shareError part total allocation :=
    fun part hpart => decimal_getSafeShare_le (hparts part hpart) ht ha
  rw [hdecimal]
  calc (parts.map fun part => decimal (getSafeShare part total allocation)).sum
      ≤ (parts.map fun part =>
          exactShare part total allocation + shareError part total allocation).sum :=
        List.sum_le_sum hle
    _ = (parts.map fun part => exactShare part total allocation).sum +
          (parts.map fun part => shareError part total allocation).sum := List.sum_map_add
    _ ≤ _ := add_le_add_left (sum_exactShare_le ht ha hsum) _

/-- **The bounds of a share.**  It is between nothing and the allocation.  When there is a total
and nothing overflows, it grows with the part and is as far from the exact share as a
`10^18`-th of that and one unit of the last digit; and the shares of parts of the total come to
no more than the allocation and these errors. -/
theorem share_bounded (ht : 0 ≤ total) (ha : 0 ≤ allocation) :
    (∀ part, 0 ≤ part → 0 ≤ getSafeShare part total allocation ∧
      getSafeShare part total allocation ≤ allocation) ∧
    (0 < total →
      (∀ part part', 0 ≤ part → part ≤ part' → NoOverflow part total allocation →
        NoOverflow part' total allocation →
        getSafeShare part total allocation ≤ getSafeShare part' total allocation) ∧
      (∀ part, 0 ≤ part → NoOverflow part total allocation →
        |decimal (getSafeShare part total allocation) - exactShare part total allocation| ≤
          shareError part total allocation) ∧
      ∀ parts : List ℤ, (∀ part ∈ parts, 0 ≤ part) → parts.sum ≤ total →
        decimal (parts.map fun part => getSafeShare part total allocation).sum ≤
          decimal allocation + (parts.map fun part => shareError part total allocation).sum) := by
  refine ⟨fun part hp => getSafeShare_mem hp ht ha, ?_⟩
  intro hpos
  refine ⟨?_, ?_, ?_⟩
  · intro part part' hp hpp h h'
    exact getSafeShare_mono hp hpp hpos ha h h'
  · intro part hp h
    have hle := decimal_getSafeShare_le hp hpos ha
    have hge := le_decimal_getSafeShare hpos ha hp h
    rw [abs_le]
    constructor <;> linarith
  · intro parts hparts hsum
    exact sum_getSafeShare_le hpos ha hparts hsum

/-- A third and two thirds of one. -/
theorem thirds_bounded :
    getSafeShare (ofInt 1) (ofInt 3) (ofInt 1) = 333333333333333333 ∧
    |decimal (getSafeShare (ofInt 1) (ofInt 3) (ofInt 1)) -
      exactShare (ofInt 1) (ofInt 3) (ofInt 1)| ≤ shareError (ofInt 1) (ofInt 3) (ofInt 1) ∧
    decimal ([ofInt 1, ofInt 2].map fun part => getSafeShare part (ofInt 3) (ofInt 1)).sum ≤
      decimal (ofInt 1) +
        ([ofInt 1, ofInt 2].map fun part => shareError part (ofInt 3) (ofInt 1)).sum := by
  have hpos : 0 < ofInt 3 := by decide
  obtain ⟨-, h⟩ := share_bounded hpos.le (show 0 ≤ ofInt 1 by decide)
  obtain ⟨-, herror, hsum⟩ := h hpos
  have hfits : NoOverflow (ofInt 1) (ofInt 3) (ofInt 1) :=
    .inr ⟨ofInt 3, 333333333333333333, by decide +kernel, by decide +kernel⟩
  refine ⟨by decide +kernel, herror _ (by decide) hfits, hsum _ ?_ (by decide)⟩
  intro part hpart
  simp only [List.mem_cons, List.not_mem_nil, or_false] at hpart
  rcases hpart with rfl | rfl <;> decide

end Arkeo
