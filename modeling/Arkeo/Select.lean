import Mathlib.Data.List.Nodup
import Mathlib.Data.Rat.Defs

/-! # Selections

A `select` over a list of rows, built up clause by clause.  A condition has three values: a
comparison with a null is unknown, and a row of which some condition is not true is left out.
-/
namespace Sql

universe u v

variable {ρ : Type u} {σ : Type v} {β : Type*}

/-- The value of a condition; `none` is unknown. -/
abbrev Truth := Option Bool

/-- `column >= bound`. -/
def ge (column : Option ℤ) (bound : ℤ) : Truth := column.map fun x => decide (bound ≤ x)

/-- `column = value`, of a column that is not null. -/
def eq [DecidableEq β] (column value : β) : Truth := some (decide (column = value))

theorem ge_true {column : Option ℤ} {bound : ℤ} :
    ge column bound = some true ↔ ∃ x ∈ column, bound ≤ x := by
  cases column <;> simp [ge]

@[simp] theorem eq_true [DecidableEq β] {column value : β} :
    eq column value = some true ↔ column = value := by
  simp [eq]

/-! ## Left joins -/

/-- The rows with those of a table that they match, and the others with none. -/
def leftJoin (rows : List ρ) (table : List σ) (on : ρ → σ → Truth) : List (ρ × Option σ) :=
  rows.flatMap fun r =>
    match table.filter fun s => on r s = some true with
    | [] => [(r, none)]
    | s :: ss => (s :: ss).map fun s => (r, some s)

theorem filter_of_unique {table : List σ} {p : σ → Bool} (hnd : table.Nodup)
    (h : ∀ s ∈ table, ∀ t ∈ table, p s → p t → s = t) :
    table.filter p = (table.find? p).toList := by
  induction table with
  | nil => rfl
  | cons s table ih =>
    obtain ⟨hs, hnd⟩ := List.nodup_cons.mp hnd
    have hih := ih hnd fun a ha b hb =>
      h a (List.mem_cons_of_mem _ ha) b (List.mem_cons_of_mem _ hb)
    by_cases hp : p s
    · rw [List.filter_cons_of_pos hp, List.find?_cons_of_pos hp]
      have hnil : table.filter p = [] := by
        apply List.filter_eq_nil_iff.mpr
        intro t ht hpt
        have heq := h s List.mem_cons_self t (List.mem_cons_of_mem _ ht) hp hpt
        exact hs (heq ▸ ht)
      rw [hnil]
      rfl
    · rw [List.filter_cons_of_neg hp, List.find?_cons_of_neg hp]
      exact hih

/-- **A join on a key**: every row once. -/
theorem leftJoin_of_unique {rows : List ρ} {table : List σ} {on : ρ → σ → Truth}
    (hnd : table.Nodup)
    (h : ∀ r, ∀ s ∈ table, ∀ t ∈ table, on r s = some true → on r t = some true → s = t) :
    leftJoin rows table on = rows.map fun r => (r, table.find? fun s => on r s = some true) := by
  unfold leftJoin
  rw [List.map_eq_flatMap]
  congr 1
  funext r
  have hf := filter_of_unique (p := fun s => decide (on r s = some true)) hnd
    fun s hs t ht hps hpt => h r s hs t ht (of_decide_eq_true hps) (of_decide_eq_true hpt)
  cases hfind : table.find? fun s => on r s = some true with
  | none =>
    rw [hfind] at hf
    rw [hf]
    rfl
  | some s =>
    rw [hfind] at hf
    rw [hf]
    rfl

/-! ## Queries -/

/-- The clauses `where` and `order by` of a query. -/
structure Select (ρ : Type u) where
  wheres : List (ρ → Truth) := []
  order : Option (ρ → ρ → Bool) := none

namespace Select

variable {q q' : Select ρ} {row : ρ} {rows : List ρ}

/-- One more condition, if the flag is set. -/
def whereIf (q : Select ρ) (flag : Bool) (cond : ρ → Truth) : Select ρ :=
  if flag then { q with wheres := q.wheres ++ [cond] } else q

/-- The order of the result. -/
def orderBy (q : Select ρ) (le : ρ → ρ → Bool) : Select ρ := { q with order := some le }

def Keeps (q : Select ρ) (row : ρ) : Prop := ∀ cond ∈ q.wheres, cond row = some true

instance (q : Select ρ) (row : ρ) : Decidable (q.Keeps row) :=
  inferInstanceAs (Decidable (∀ cond ∈ q.wheres, cond row = some true))

/-- The rows of the result. -/
def run (q : Select ρ) (rows : List ρ) : List ρ :=
  let kept := rows.filter fun row => q.Keeps row
  match q.order with
  | none => kept
  | some le => kept.mergeSort le

theorem keeps_empty : Keeps {} row := by
  intro cond hcond
  cases hcond

/-- A condition counts when its flag is set. -/
@[simp] theorem keeps_whereIf {flag : Bool} {cond : ρ → Truth} :
    (q.whereIf flag cond).Keeps row ↔ q.Keeps row ∧ (flag = true → cond row = some true) := by
  cases flag with
  | false => simp [whereIf]
  | true => simp [whereIf, Keeps, or_imp, forall_and]

@[simp] theorem keeps_orderBy {le : ρ → ρ → Bool} : (q.orderBy le).Keeps row ↔ q.Keeps row :=
  Iff.rfl

theorem run_perm (q : Select ρ) (rows : List ρ) :
    (q.run rows).Perm (rows.filter fun row => q.Keeps row) := by
  unfold run
  cases q.order with
  | none => exact .refl _
  | some le => exact List.mergeSort_perm _ _

/-- **The result**: the rows that every condition is true of. -/
theorem mem_run : row ∈ q.run rows ↔ row ∈ rows ∧ q.Keeps row := by
  rw [(q.run_perm rows).mem_iff, List.mem_filter, decide_eq_true_eq]

theorem nodup_map_run {f : ρ → β} (h : (rows.map f).Nodup) : ((q.run rows).map f).Nodup := by
  rw [((q.run_perm rows).map f).nodup_iff]
  exact h.sublist (List.filter_sublist.map f)

end Select

end Sql
