import Mathlib.Algebra.BigOperators.Group.List.Basic
import Mathlib.Algebra.Order.BigOperators.Group.List
import Mathlib.Tactic.Linarith

/-! # Tokens in places

A fixed list of tokens, each of some weight and each in one place.  `worth` is the
weight of the tokens at a place.  When the tokens are moved by a map of the places,
the worth of a place is that of the places mapped to it.  Distinct places are worth
no more than all the tokens together (`sum_worth_le`).
-/
namespace Tokens

variable {τ π : Type} [DecidableEq π] {tokens : List τ} {weight : τ → ℤ} {place : τ → π}

/-- The weight of the tokens at a place. -/
def worth (tokens : List τ) (weight : τ → ℤ) (place : τ → π) (p : π) : ℤ :=
  (tokens.map fun t => if place t = p then weight t else 0).sum

theorem worth_cons (t : τ) (p : π) : worth (t :: tokens) weight place p =
    (if place t = p then weight t else 0) + worth tokens weight place p := by
  simp only [worth, List.map_cons, List.sum_cons]

theorem worth_eq_sum_filter (p : π) : worth tokens weight place p =
    ((tokens.filter fun t => place t = p).map weight).sum := by
  induction tokens with
  | nil => rfl
  | cons t tokens ih =>
    rw [worth_cons, ih]
    by_cases ht : place t = p
    · rw [if_pos ht, List.filter_cons_of_pos (by simpa using ht), List.map_cons, List.sum_cons]
    · rw [if_neg ht, List.filter_cons_of_neg (by simpa using ht), zero_add]

theorem worth_nonneg (hw : ∀ t ∈ tokens, 0 ≤ weight t) (place : τ → π) (p : π) :
    0 ≤ worth tokens weight place p := by
  apply List.sum_nonneg
  intro x hx
  obtain ⟨t, ht, rfl⟩ := List.mem_map.mp hx
  split
  · exact hw t ht
  · exact le_rfl

/-- A place is worth at least each token at it. -/
theorem weight_le_worth (hw : ∀ t ∈ tokens, 0 ≤ weight t) {t : τ} (ht : t ∈ tokens) :
    weight t ≤ worth tokens weight place (place t) := by
  induction tokens with
  | nil => cases ht
  | cons u tokens ih =>
    obtain ⟨hu, htokens⟩ := List.forall_mem_cons.mp hw
    rw [worth_cons]
    rcases List.mem_cons.mp ht with rfl | ht
    · rw [if_pos rfl]
      have := worth_nonneg htokens place (place t)
      omega
    · have := ih htokens ht
      split <;> omega

/-! ## Moving the tokens -/

theorem worth_of_one {f : π → π} {p r : π} (h : ∀ q, f q = p ↔ q = r) :
    worth tokens weight (fun t => f (place t)) p = worth tokens weight place r := by
  simp only [worth, h]

theorem worth_of_two {f : π → π} {p r r' : π} (hne : r ≠ r') (h : ∀ q, f q = p ↔ q = r ∨ q = r') :
    worth tokens weight (fun t => f (place t)) p =
      worth tokens weight place r + worth tokens weight place r' := by
  induction tokens with
  | nil => rfl
  | cons t tokens ih =>
    rw [worth_cons, worth_cons, worth_cons, ih]
    simp only [h]
    by_cases hr : place t = r
    · have hr' : place t ≠ r' := fun he => hne (hr.symm.trans he)
      rw [if_pos (.inl hr), if_pos hr, if_neg hr']
      omega
    · by_cases hr' : place t = r'
      · rw [if_pos (.inr hr'), if_neg hr, if_pos hr']
        omega
      · rw [if_neg (by simp [hr, hr']), if_neg hr, if_neg hr']
        omega

/-! ## Counting -/

/-- A token is counted at no more than one of several distinct places. -/
theorem sum_ite_le {q : π} {x : ℤ} (hx : 0 ≤ x) {places : List π} (hnd : places.Nodup) :
    (places.map fun p => if q = p then x else 0).sum ≤ x := by
  induction places with
  | nil => simpa using hx
  | cons p places ih =>
    obtain ⟨hp, hnd⟩ := List.nodup_cons.mp hnd
    rw [List.map_cons, List.sum_cons]
    by_cases hq : q = p
    · -- the token is not at any other of the places
      have hzero : (places.map fun p => if q = p then x else 0).sum = 0 := by
        apply List.sum_eq_zero
        intro y hy
        obtain ⟨r, hr, rfl⟩ := List.mem_map.mp hy
        exact if_neg (by rintro rfl; exact hp (hq ▸ hr))
      rw [if_pos hq, hzero]
      omega
    · rw [if_neg hq]
      have := ih hnd
      omega

/-- **Distinct places are worth no more than all the tokens together.** -/
theorem sum_worth_le (hw : ∀ t ∈ tokens, 0 ≤ weight t) {places : List π} (hnd : places.Nodup) :
    (places.map (worth tokens weight place)).sum ≤ (tokens.map weight).sum := by
  induction tokens with
  | nil =>
    rw [List.sum_eq_zero]
    · rfl
    · intro x hx
      obtain ⟨p, -, rfl⟩ := List.mem_map.mp hx
      rfl
  | cons t tokens ih =>
    obtain ⟨ht, htokens⟩ := List.forall_mem_cons.mp hw
    have hsplit : (places.map (worth (t :: tokens) weight place)).sum =
        (places.map fun p => if place t = p then weight t else 0).sum +
          (places.map (worth tokens weight place)).sum := by
      rw [← List.sum_map_add]
      exact congrArg List.sum (List.map_congr_left fun p _ => worth_cons t p)
    have hone := sum_ite_le (q := place t) ht hnd
    have hrest := ih htokens
    rw [hsplit, List.map_cons, List.sum_cons]
    omega

end Tokens
