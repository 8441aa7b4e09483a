import Mathlib.Data.Int.Basic
import Mathlib.Data.List.Count
import Mathlib.Data.List.Perm.Basic
import Mathlib.Tactic.Linarith

/-! # The first to reach a quorum

Votes are counted one after the other, and the first candidate whose count reaches a
threshold wins; if none does, a fallback stands.  Whoever reaches the threshold among all
votes wins in some order (`exists_perm_firstToReach`), so the winner does not depend on the
order exactly when no two candidates reach it (`firstToReach_perm_iff`).
-/
namespace Quorum

variable {α : Type} [DecidableEq α] {quorum : ℤ} {fallback a b : α} {seen l : List α}

/-- The winner, once the votes `seen` have been counted. -/
def countOn (quorum : ℤ) (fallback : α) : List α → List α → α
  | _, [] => fallback
  | seen, a :: l => if quorum ≤ seen.count a + 1 then a else countOn quorum fallback (seen ++ [a]) l

def firstToReach (quorum : ℤ) (fallback : α) (l : List α) : α := countOn quorum fallback [] l

/-- A candidate with enough votes. -/
def Reached (quorum : ℤ) (l : List α) (a : α) : Prop := a ∈ l ∧ quorum ≤ l.count a

theorem Reached.perm {l' : List α} (h : l.Perm l') : Reached quorum l a ↔ Reached quorum l' a := by
  unfold Reached
  rw [h.mem_iff, h.count_eq]

/-- Either someone who has enough votes wins, or none of those still counted has. -/
theorem countOn_cases (quorum : ℤ) (fallback : α) (seen l : List α) :
    (countOn quorum fallback seen l ∈ l ∧
        quorum ≤ (seen ++ l).count (countOn quorum fallback seen l)) ∨
      countOn quorum fallback seen l = fallback ∧ ∀ a ∈ l, (seen ++ l).count a < quorum := by
  induction l generalizing seen with
  | nil => exact .inr ⟨rfl, nofun⟩
  | cons a l ih =>
    have hassoc : seen ++ a :: l = (seen ++ [a]) ++ l := by simp
    unfold countOn
    by_cases hmin : quorum ≤ seen.count a + 1
    · rw [if_pos hmin]
      refine .inl ⟨List.mem_cons_self, ?_⟩
      rw [List.count_append, List.count_cons_self]
      push_cast
      omega
    · rw [if_neg hmin, hassoc]
      rcases ih (seen ++ [a]) with ⟨hmem, hle⟩ | ⟨heq, hlt⟩
      · exact .inl ⟨List.mem_cons_of_mem a hmem, hle⟩
      · refine .inr ⟨heq, ?_⟩
        intro b hb
        rcases List.mem_cons.mp hb with rfl | hb
        · -- the last vote for `b` was this one, or it is among the rest
          by_cases hbl : b ∈ l
          · exact hlt b hbl
          · rw [List.count_append, List.count_append, List.count_eq_zero.mpr hbl,
              List.count_singleton_self]
            push_cast
            omega
        · exact hlt b hb

theorem firstToReach_reached (h : Reached quorum l a) :
    Reached quorum l (firstToReach quorum fallback l) := by
  rcases countOn_cases quorum fallback [] l with hwon | ⟨-, hlt⟩
  · exact hwon
  · exact absurd (hlt a h.1) (not_lt.mpr h.2)

theorem firstToReach_fallback (h : ∀ a, ¬Reached quorum l a) : firstToReach quorum fallback l = fallback := by
  rcases countOn_cases quorum fallback [] l with hwon | ⟨heq, -⟩
  · exact absurd hwon (h _)
  · exact heq

/-- Votes for one candidate that come first decide, if there are enough. -/
theorem countOn_front {front : List α} (hne : front ≠ []) (hall : ∀ b ∈ front, b = a)
    (hmin : quorum ≤ seen.count a + front.length) (back : List α) :
    countOn quorum fallback seen (front ++ back) = a := by
  induction front generalizing seen with
  | nil => exact absurd rfl hne
  | cons b front ih =>
    obtain ⟨rfl, hall⟩ := List.forall_mem_cons.mp hall
    rw [List.cons_append, countOn]
    by_cases hnow : quorum ≤ seen.count b + 1
    · exact if_pos hnow
    · rw [if_neg hnow]
      rw [List.length_cons] at hmin
      refine ih ?_ hall ?_
      · rintro rfl
        push_cast [List.length_nil] at hmin
        omega
      · rw [List.count_append, List.count_singleton_self]
        push_cast at hmin ⊢
        omega

/-- **Whoever has enough votes wins in some order.** -/
theorem exists_perm_firstToReach (fallback : α) (h : Reached quorum l a) :
    ∃ l', l'.Perm l ∧ firstToReach quorum fallback l' = a := by
  refine ⟨l.filter (· = a) ++ l.filter (fun b => ¬b = a), ?_, ?_⟩
  · simpa using List.filter_append_perm (fun b => decide (b = a)) l
  · refine countOn_front ?_ ?_ ?_ _
    · exact List.ne_nil_of_mem (List.mem_filter.mpr ⟨h.1, by simp⟩)
    · intro b hb
      simpa using (List.mem_filter.mp hb).2
    · have hlen : (l.filter (· = a)).length = l.count a := by
        rw [List.count_eq_countP, List.countP_eq_length_filter]
        congr 1
      rw [List.count_nil, hlen]
      have := h.2
      omega

/-- **The order does not matter exactly when at most one candidate has enough votes.** -/
theorem firstToReach_perm_iff :
    (∀ l', l'.Perm l → firstToReach quorum fallback l' = firstToReach quorum fallback l) ↔
      ∀ a b, Reached quorum l a → Reached quorum l b → a = b := by
  constructor
  · intro hsame a b ha hb
    obtain ⟨la, hla, hwa⟩ := exists_perm_firstToReach fallback ha
    obtain ⟨lb, hlb, hwb⟩ := exists_perm_firstToReach fallback hb
    rw [← hwa, ← hwb, hsame la hla, hsame lb hlb]
  · intro huniq l' hperm
    by_cases hsome : ∃ a, Reached quorum l a
    · obtain ⟨a, ha⟩ := hsome
      have hwon : Reached quorum l (firstToReach quorum fallback l) := firstToReach_reached ha
      have hwon' : Reached quorum l' (firstToReach quorum fallback l') :=
        firstToReach_reached ((Reached.perm hperm).mpr ha)
      exact huniq _ _ ((Reached.perm hperm).mp hwon') hwon
    · push Not at hsome
      rw [firstToReach_fallback hsome, firstToReach_fallback]
      exact fun a ha => hsome a ((Reached.perm hperm).mp ha)

end Quorum
