import Arkeo.Manager

/-! # Shares of an allocation

What `GetSafeShare` gives is the allocation times the part over the total, the part cut down
to the total, up to a `10^18`-th of it and a little more than half of the last digit.  A
decimal that overflows gives nothing, so that the upper bound always holds
(`getSafeShare_le`) and the lower one for decimals that are not too long
(`le_getSafeShare`).
-/
namespace Arkeo
open LegacyDec

variable {part total allocation : ℤ}

/-- The share of a part that has been cut down to the total. -/
theorem getSafeShare_eq (part total allocation : ℤ) :
    getSafeShare part total allocation = getUncappedShare (min part total) total allocation := by
  unfold getSafeShare
  by_cases h : total ≤ part
  · rw [if_pos h, min_eq_right h]
  · rw [if_neg h, min_eq_left (not_le.mp h).le]

/-- Nothing, or two quotients. -/
theorem getUncappedShare_cases (part total allocation : ℤ) :
    getUncappedShare part total allocation = 0 ∨
      ∃ q v, quo total part = some q ∧ quo allocation q = some v ∧
        getUncappedShare part total allocation = v := by
  unfold getUncappedShare
  split
  · exact .inl rfl
  · cases hq : quo total part with
    | none => exact .inl rfl
    | some q =>
      cases hv : quo allocation q with
      | none =>
        rw [Option.bind_some, hv]
        exact .inl rfl
      | some v =>
        rw [Option.bind_some, hv]
        exact .inr ⟨q, v, rfl, hv, rfl⟩

theorem getSafeShare_le (ha : 0 ≤ allocation) (hp : 0 ≤ part) (ht : 0 < total) :
    0 ≤ getSafeShare part total allocation ∧
      2 * (getSafeShare part total allocation * total * precision) ≤
        2 * (allocation * min part total * (precision + 1)) + total * precision := by
  rw [getSafeShare_eq]
  have hmin : 0 ≤ min part total := le_min hp ht.le
  rcases hmin.eq_or_lt with h0 | hpos
  · have hzero : getUncappedShare (min part total) total allocation = 0 := if_pos (.inl h0.symm)
    rw [hzero, ← h0]
    have := Int.mul_nonneg ht.le precision_pos.le
    constructor <;> linarith
  · rcases getUncappedShare_cases (min part total) total allocation with h0 | ⟨q, v, hq, hv, h⟩
    · rw [h0]
      have h₁ := Int.mul_nonneg (Int.mul_nonneg ha hmin) (precision_pos.trans (lt_add_one _)).le
      have h₂ := Int.mul_nonneg ht.le precision_pos.le
      constructor <;> linarith
    · rw [h]
      obtain ⟨hv0, hle, -⟩ := share_bounds ha hpos (min_le_right _ _) hq hv
      exact ⟨hv0, hle⟩

theorem getSafeShare_le_allocation (ha : 0 ≤ allocation) (hp : 0 ≤ part) (ht : 0 < total) :
    getSafeShare part total allocation ≤ allocation := by
  rw [getSafeShare_eq]
  rcases getUncappedShare_cases (min part total) total allocation with h0 | ⟨q, v, hq, hv, h⟩
  · rw [h0]
    exact ha
  · rw [h]
    have hne : min part total ≠ 0 := by
      intro h0
      rw [h0, quo, if_pos rfl] at hq
      cases hq
    exact share_le ha (lt_of_le_of_ne (le_min hp ht.le) (Ne.symm hne)) (min_le_right _ _) hq hv

theorem le_getSafeShare (ha : 0 ≤ allocation) (hp : 0 ≤ part) (ht : 0 < total)
    (hafit : allocation < 2 ^ 250) (htfit : total < 2 ^ 250) :
    2 * (allocation * min part total * (precision - 1)) ≤
      2 * (getSafeShare part total allocation * total * precision) + total * (precision + 2) := by
  rw [getSafeShare_eq]
  have hprec : precision = 10 ^ 18 := rfl
  have hmin : 0 ≤ min part total := le_min hp ht.le
  rcases hmin.eq_or_lt with h0 | hpos
  · have hzero : getUncappedShare (min part total) total allocation = 0 := if_pos (.inl h0.symm)
    rw [hzero, ← h0, hprec]
    linarith
  · have hbits : (2 : ℤ) ^ (maxDecBitLen + 1) = 2 ^ 316 := rfl
    obtain ⟨q, hq⟩ : ∃ q, quo total (min part total) = some q := by
      refine quo_some ht.le hpos ?_
      rw [hbits, hprec]
      omega
    have hq0 : 0 < q := by
      obtain ⟨hq0, -, hq⟩ := quo_bounds ht.le hpos hq
      refine lt_of_le_of_ne hq0 ?_
      rintro rfl
      have := min_le_right part total
      rw [hprec] at hq
      linarith
    obtain ⟨v, hv⟩ : ∃ v, quo allocation q = some v := by
      refine quo_some ha hq0 ?_
      rw [hbits, hprec]
      omega
    have hshare : getUncappedShare (min part total) total allocation = v := by
      unfold getUncappedShare
      rw [if_neg (not_or.mpr ⟨hpos.ne', ht.ne'⟩), hq, Option.bind_some, hv, Option.getD_some]
    rw [hshare]
    exact (share_bounds ha hpos (min_le_right _ _) hq hv).2.2

end Arkeo
