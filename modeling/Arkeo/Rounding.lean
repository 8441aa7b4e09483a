import Mathlib.Tactic.Ring
import Arkeo.LegacyDec

/-! # Rounding half to even

`IsRound d x n` says that `n` is the multiple of `d` nearest to `x`, counted in `d`s, and
the even one of two that are equally near.  There is at most one, and it grows with `x`;
rounding a decimal to an integer finds it for `d = 10^18` (`isRound_roundInt`).
-/
namespace LegacyDec

/-- The nearest multiple, with the bounds on both sides and the rule for ties. -/
structure IsRound (d x n : ℤ) : Prop where
  lo : 2 * (n * d) - d ≤ 2 * x
  hi : 2 * x ≤ 2 * (n * d) + d
  tie : 2 * x = 2 * (n * d) - d ∨ 2 * x = 2 * (n * d) + d → 2 ∣ n

variable {d x y n m : ℤ}

/-- What is rounded grows with what it is rounded from: two ties between neighbours would make
both of them even. -/
theorem IsRound.mono (hd : 0 < d) (hx : IsRound d x n) (hy : IsRound d y m) (hxy : x ≤ y) :
    n ≤ m := by
  by_contra hlt
  have hgap : 0 ≤ (n - m - 1) * d := Int.mul_nonneg (by omega) hd.le
  have hexpand : (n - m - 1) * d = n * d - m * d - d := by ring
  have h1 := hx.lo
  have h2 := hy.hi
  -- both are ties between neighbours
  have hn := hx.tie (.inl (by omega))
  have hm := hy.tie (.inr (by omega))
  have hone : (n - m - 1) * d = 0 := by omega
  have hnm : n - m - 1 = 0 := (mul_eq_zero.mp hone).resolve_right hd.ne'
  omega

/-- There is one number to round to. -/
theorem IsRound.unique (hd : 0 < d) (hn : IsRound d x n) (hm : IsRound d x m) : n = m :=
  le_antisymm (hn.mono hd hm le_rfl) (hm.mono hd hn le_rfl)

/-- **Rounding a decimal finds it**: each branch of the chopped division is one of the cases. -/
theorem isRound_roundInt (hx : 0 ≤ x) : IsRound precision x (roundInt x) := by
  have hp : precision = 1000000000000000000 := by decide
  rw [roundInt, chopPrecisionAndRound, if_neg (by omega), chopNonneg, hp]
  split
  · exact ⟨by omega, by omega, by omega⟩
  · split
    · exact ⟨by omega, by omega, by omega⟩
    · split
      · exact ⟨by omega, by omega, by omega⟩
      · exact ⟨by omega, by omega, by omega⟩

theorem roundInt_mono (hx : 0 ≤ x) (hxy : x ≤ y) : roundInt x ≤ roundInt y :=
  (isRound_roundInt hx).mono precision_pos (isRound_roundInt (hx.trans hxy)) hxy

/-- A quotient that does not overflow is rounded once, at the eighteenth digit. -/
theorem quo_eq {a b q : ℤ} (h : quo a b = some q) :
    b ≠ 0 ∧ q = roundInt ((a * precision ^ 2).tdiv b) := by
  unfold quo at h
  split at h
  · cases h
  · rename_i hb
    simp only at h
    split at h
    · exact ⟨hb, (Option.some.inj h).symm⟩
    · cases h

/-- A larger divisor has no larger quotient. -/
theorem quo_antitone {a b b' q q' : ℤ} (ha : 0 ≤ a) (hb : 0 < b) (hbb : b ≤ b')
    (h : quo a b = some q) (h' : quo a b' = some q') : q' ≤ q := by
  obtain ⟨-, rfl⟩ := quo_eq h
  obtain ⟨-, rfl⟩ := quo_eq h'
  have hnum : 0 ≤ a * precision ^ 2 := Int.mul_nonneg ha (by decide)
  rw [Int.tdiv_eq_ediv_of_nonneg hnum, Int.tdiv_eq_ediv_of_nonneg hnum]
  have h0 : 0 ≤ a * precision ^ 2 / b' := Int.ediv_nonneg hnum (hb.le.trans hbb)
  apply roundInt_mono h0
  apply Int.le_ediv_of_mul_le hb
  calc a * precision ^ 2 / b' * b ≤ a * precision ^ 2 / b' * b' :=
        Int.mul_le_mul_of_nonneg_left hbb h0
    _ ≤ a * precision ^ 2 := Int.ediv_mul_le _ (hb.trans_le hbb).ne'

end LegacyDec
