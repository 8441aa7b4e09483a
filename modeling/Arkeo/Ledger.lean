import Mathlib.Data.List.AList
import Mathlib.Algebra.BigOperators.Group.List.Basic
import Mathlib.Algebra.Order.BigOperators.Group.List
import Mathlib.Tactic.Linarith
import Mathlib.Tactic.Abel

/-! # Sums over finite maps, and ledgers

A store is Mathlib's association list with distinct keys (`AList`).  `sumOver`
adds a quantity up over its records; writing one record changes the sum by the
new record minus the replaced one, and deleting one removes it.

A ledger is such a store of balances, by account and denomination.  `move` takes
an amount from one account to another; it changes no other balance and no
total.
-/
namespace AList

variable {κ ν : Type} [DecidableEq κ] {M : Type} [AddCommGroup M]

/-- The sum of `f` over the records of a store. -/
def sumOver (f : κ → ν → M) (m : AList (fun _ : κ => ν)) : M :=
  (m.entries.map fun e => f e.1 e.2).sum

/-- What the record under `k`, if there is one, adds to the sum of `f`. -/
def valueAt (f : κ → ν → M) (m : AList (fun _ : κ => ν)) (k : κ) : M :=
  (m.lookup k).elim 0 (f k)

omit [DecidableEq κ] in
@[simp] theorem sumOver_empty (f : κ → ν → M) : sumOver f ∅ = 0 := by
  simp [sumOver]

theorem valueAt_of_lookup {f : κ → ν → M} {m : AList (fun _ : κ => ν)} {k : κ} {v : ν}
    (h : m.lookup k = some v) : valueAt f m k = f k v := by
  simp [valueAt, h]

theorem valueAt_of_none {f : κ → ν → M} {m : AList (fun _ : κ => ν)} {k : κ}
    (h : m.lookup k = none) : valueAt f m k = 0 := by
  simp [valueAt, h]

/-- Deleting a key takes its record out of the sum. -/
theorem sumOver_erase (f : κ → ν → M) (m : AList (fun _ : κ => ν)) (k : κ) :
    sumOver f (m.erase k) = sumOver f m - valueAt f m k := by
  obtain ⟨l, hl⟩ := m
  change ((l.kerase k).map fun e => f e.1 e.2).sum =
    (l.map fun e => f e.1 e.2).sum - (l.dlookup k).elim 0 (f k)
  clear hl
  induction l with
  | nil => simp
  | cons e l ih =>
    obtain ⟨k', v⟩ := e
    by_cases he : k = k'
    · subst he
      have hk : List.kerase k (⟨k, v⟩ :: l) = l := List.kerase_cons_eq rfl
      rw [hk, List.dlookup_cons_eq]
      simp
    · rw [List.kerase_cons_ne he, List.dlookup_cons_ne _ _ he, List.map_cons, List.map_cons,
        List.sum_cons, List.sum_cons, ih]
      abel

/-- Writing a key replaces its record in the sum. -/
theorem sumOver_insert (f : κ → ν → M) (m : AList (fun _ : κ => ν)) (k : κ) (v : ν) :
    sumOver f (m.insert k v) = sumOver f m - valueAt f m k + f k v := by
  rw [← sumOver_erase]
  simp only [sumOver, entries_insert, List.map_cons, List.sum_cons]
  rw [add_comm]
  rfl

theorem mem_entries {m : AList (fun _ : κ => ν)} {k : κ} {v : ν} :
    (⟨k, v⟩ : Sigma fun _ : κ => ν) ∈ m.entries ↔ m.lookup k = some v :=
  mem_lookup_iff.symm

theorem sumOver_nonneg {f : κ → ν → ℤ} {m : AList (fun _ : κ => ν)}
    (h : ∀ k v, m.lookup k = some v → 0 ≤ f k v) : 0 ≤ sumOver f m := by
  apply List.sum_nonneg
  intro x hx
  obtain ⟨⟨k, v⟩, he, rfl⟩ := List.mem_map.mp hx
  exact h k v (mem_entries.mp he)

/-- A sum of non-negative terms is at least each of them. -/
theorem valueAt_le_sumOver {f : κ → ν → ℤ} {m : AList (fun _ : κ => ν)}
    (h : ∀ k v, m.lookup k = some v → 0 ≤ f k v) (k : κ) : valueAt f m k ≤ sumOver f m := by
  have he := sumOver_erase f m k
  have hn : 0 ≤ sumOver f (m.erase k) := by
    apply sumOver_nonneg
    intro k' v hv
    by_cases hk : k' = k
    · rw [hk, lookup_erase] at hv
      cases hv
    · exact h k' v (by rwa [lookup_erase_ne hk] at hv)
  omega

end AList

/-- Balances, by account and denomination. -/
abbrev Ledger (A D : Type) := AList (fun _ : A × D => ℤ)

namespace Ledger

variable {A D : Type} [DecidableEq A] [DecidableEq D]

/-- The balance of an account in a denomination. -/
def bal (l : Ledger A D) (a : A) (d : D) : ℤ := (l.lookup (a, d)).getD 0

/-- Adds `x` to one balance. -/
def credit (l : Ledger A D) (a : A) (d : D) (x : ℤ) : Ledger A D :=
  l.insert (a, d) (bal l a d + x)

/-- Takes `x` from `src` to `dst`. -/
def move (l : Ledger A D) (src dst : A) (d : D) (x : ℤ) : Ledger A D :=
  credit (credit l src d (-x)) dst d x

/-- The sum of all balances in a denomination. -/
def supply (l : Ledger A D) (d : D) : ℤ :=
  AList.sumOver (fun k v => if k.2 = d then v else 0) l

/-- No balance is negative. -/
def Nonneg (l : Ledger A D) : Prop := ∀ a d, 0 ≤ bal l a d

theorem bal_credit (l : Ledger A D) (a b : A) (d e : D) (x : ℤ) :
    bal (credit l a d x) b e = bal l b e + if b = a ∧ e = d then x else 0 := by
  unfold credit
  by_cases h : b = a ∧ e = d
  · obtain ⟨rfl, rfl⟩ := h
    simp [bal, AList.lookup_insert]
  · have hne : (b, e) ≠ (a, d) := fun he => h ⟨congrArg Prod.fst he, congrArg Prod.snd he⟩
    simp [bal, AList.lookup_insert_ne hne, h]

theorem bal_move (l : Ledger A D) (src dst b : A) (d e : D) (x : ℤ) :
    bal (move l src dst d x) b e =
      bal l b e - (if b = src ∧ e = d then x else 0) + if b = dst ∧ e = d then x else 0 := by
  rw [move, bal_credit, bal_credit]
  split <;> split <;> omega

theorem supply_credit (l : Ledger A D) (a : A) (d e : D) (x : ℤ) :
    supply (credit l a d x) e = supply l e + if e = d then x else 0 := by
  have hv : AList.valueAt (fun k v => if k.2 = e then v else 0) l (a, d) =
      if e = d then bal l a d else 0 := by
    unfold AList.valueAt bal
    cases l.lookup (a, d) <;> simp [eq_comm]
  rw [supply, credit, AList.sumOver_insert, hv, ← supply]
  by_cases h : e = d
  · subst h
    simp only [if_true]
    omega
  · simp [h, Ne.symm h]

theorem supply_move (l : Ledger A D) (src dst : A) (d e : D) (x : ℤ) :
    supply (move l src dst d x) e = supply l e := by
  rw [move, supply_credit, supply_credit]
  split <;> omega

theorem Nonneg.move {l : Ledger A D} (h : Nonneg l) {src dst : A} {d : D} {x : ℤ} (hx : 0 ≤ x)
    (hle : x ≤ bal l src d) : Nonneg (Ledger.move l src dst d x) := by
  intro b e
  have hb := h b e
  rw [bal_move]
  by_cases hs : b = src ∧ e = d
  · obtain ⟨rfl, rfl⟩ := hs
    simp only [and_self, if_true]
    split <;> omega
  · simp only [hs, if_false]
    split <;> omega

theorem Nonneg.bal_le_supply {l : Ledger A D} (h : Nonneg l) (a : A) (d : D) :
    bal l a d ≤ supply l d := by
  have hterm : ∀ k v, l.lookup k = some v → (0 : ℤ) ≤ if k.2 = d then v else 0 := by
    rintro ⟨b, e⟩ v hv
    have hb := h b e
    simp only [bal, hv, Option.getD_some] at hb
    dsimp only
    split <;> omega
  have hle := AList.valueAt_le_sumOver hterm (a, d)
  have hval : AList.valueAt (fun k v => if k.2 = d then v else 0) l (a, d) = bal l a d := by
    unfold AList.valueAt bal
    cases l.lookup (a, d) <;> simp
  rw [hval] at hle
  exact hle

end Ledger
