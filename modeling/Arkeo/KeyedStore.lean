import Mathlib.Data.List.AList

/-! # Stores of records by written keys

Records of several kinds share one store, whose keys are lists of letters.  A key is the head
of its kind followed by what identifies the record; the records of one kind are read by going
through the keys with a common prefix.

When no head begins another one, keys of different kinds are different, and a prefix that
fits one head only finds the records of that kind.  The store then is a table by kind and
identifier (`Represents`), whatever is written to it.
-/
namespace Keyed

universe u v w x

variable {α : Type u} {ι : Type v}

/-! ## Heads -/

/-- No head begins another one. -/
def PrefixFree (head : ι → List α) : Prop := ∀ i j, head i <+: head j → i = j

/-- The prefix begins the head, and fits no other one. -/
structure Selects (head : ι → List α) (pre : List α) (i : ι) : Prop where
  begins : pre <+: head i
  only : ∀ j, pre <+: head j ∨ head j <+: pre → j = i

variable {head : ι → List α} {pre rest rest' : List α} {i j : ι}

/-- **The head of a key** says what kind it is of. -/
theorem PrefixFree.append_inj (hfree : PrefixFree head) (h : head i ++ rest = head j ++ rest') :
    i = j ∧ rest = rest' := by
  have hi : head i <+: head j ++ rest' := ⟨rest, h⟩
  have hij : i = j := by
    rcases List.prefix_or_prefix_of_prefix hi (List.prefix_append (head j) rest') with hp | hp
    · exact hfree i j hp
    · exact (hfree j i hp).symm
  subst hij
  exact ⟨rfl, List.append_cancel_left h⟩

/-- **A selecting prefix** begins the keys of its kind and no others. -/
theorem Selects.prefix_iff (h : Selects head pre i) : pre <+: head j ++ rest ↔ j = i := by
  constructor
  · intro hp
    exact h.only j (List.prefix_or_prefix_of_prefix hp (List.prefix_append (head j) rest))
  · rintro rfl
    exact h.begins.trans (List.prefix_append (head j) rest)

/-! ## The store -/

variable {κ : Type v} {γ : Type w} {V : Type x} [DecidableEq α] [DecidableEq γ]

abbrev Store (α : Type u) (V : Type x) := AList fun _ : List α => V

/-- What is done to a store. -/
inductive Op (κ : Type v) (V : Type x) where
  | set (k : κ) (v : V)
  | delete (k : κ)

namespace Op

/-- The key that is written to. -/
def key : Op κ V → κ
  | .set k _ => k
  | .delete k => k

/-- What is under it afterwards. -/
def value : Op κ V → Option V
  | .set _ v => some v
  | .delete _ => none

/-- The operation on records of one kind among others. -/
def map {κ' : Type*} {V' : Type*} (f : κ → κ') (g : V → V') : Op κ V → Op κ' V'
  | .set k v => .set (f k) (g v)
  | .delete k => .delete (f k)

/-- An operation on a table, where a key has a name in the table. -/
def apply (name : κ → γ) (t : AList fun _ : γ => V) : Op κ V → AList fun _ : γ => V
  | .set k v => t.insert (name k) v
  | .delete k => t.erase (name k)

/-- A list of operations. -/
def applyAll (name : κ → γ) (t : AList fun _ : γ => V) (ops : List (Op κ V)) :
    AList fun _ : γ => V :=
  ops.foldl (apply name) t

@[simp] theorem key_map {κ' : Type*} {V' : Type*} (f : κ → κ') (g : V → V') (op : Op κ V) :
    (op.map f g).key = f op.key := by
  cases op <;> rfl

@[simp] theorem value_map {κ' : Type*} {V' : Type*} (f : κ → κ') (g : V → V') (op : Op κ V) :
    (op.map f g).value = op.value.map g := by
  cases op <;> rfl

theorem lookup_apply (name : κ → γ) (t : AList fun _ : γ => V) (op : Op κ V) (g : γ) :
    (apply name t op).lookup g = if g = name op.key then op.value else t.lookup g := by
  by_cases hg : g = name op.key
  · rw [if_pos hg, hg]
    cases op with
    | set k v => exact AList.lookup_insert _
    | delete k => exact AList.lookup_erase _ _
  · rw [if_neg hg]
    cases op with
    | set k v => exact AList.lookup_insert_ne hg
    | delete k => exact AList.lookup_erase_ne hg

theorem map_lookup_apply {V' : Type*} (f : V → V') (name : κ → γ) (t : AList fun _ : γ => V)
    (op : Op κ V) (g : γ) :
    ((apply name t op).lookup g).map f =
      if g = name op.key then op.value.map f else (t.lookup g).map f := by
  rw [lookup_apply]
  exact apply_ite (Option.map f) _ _ _

end Op

/-- The records whose keys have the prefix, in the order of the keys. -/
def Store.iterator [LT α] [DecidableLT α] (s : Store α V) (pre : List α) :
    List (Sigma fun _ : List α => V) :=
  (s.entries.filter fun e => pre <+: e.1).mergeSort fun e e' => decide (e.1 ≤ e'.1)

/-- The store holds what the table holds, under the written keys. -/
structure Represents (key : κ → List α) (canon : κ → γ) (s : Store α V)
    (t : AList fun _ : γ => V) : Prop where
  lookup : ∀ k, s.lookup (key k) = t.lookup (canon k)
  written : ∀ b, (s.lookup b).isSome → ∃ k, key k = b

variable {key : κ → List α} {canon : κ → γ} {s : Store α V} {t : AList fun _ : γ => V}

theorem represents_empty : Represents key canon (∅ : Store α V) ∅ := by
  refine ⟨fun k => ?_, fun b hb => ?_⟩
  · rw [AList.lookup_empty, AList.lookup_empty]
  · rw [AList.lookup_empty] at hb
    cases hb

/-- **One operation** on a store whose keys tell the records apart. -/
theorem Represents.apply (hkey : ∀ k k', key k = key k' ↔ canon k = canon k')
    (h : Represents key canon s t) (op : Op κ V) :
    Represents key canon (op.apply key s) (op.apply canon t) := by
  refine ⟨?_, ?_⟩
  · intro k
    rw [Op.lookup_apply, Op.lookup_apply, h.lookup]
    simp only [hkey]
  · intro b hb
    rw [Op.lookup_apply] at hb
    by_cases hbk : b = key op.key
    · exact ⟨op.key, hbk.symm⟩
    · rw [if_neg hbk] at hb
      exact h.written b hb

/-- **A run** of operations. -/
theorem Represents.applyAll (hkey : ∀ k k', key k = key k' ↔ canon k = canon k')
    (h : Represents key canon s t) (ops : List (Op κ V)) :
    Represents key canon (Op.applyAll key s ops) (Op.applyAll canon t ops) := by
  induction ops generalizing s t with
  | nil => exact h
  | cons op ops ih => exact ih (h.apply hkey op)

variable [LT α] [DecidableLT α]

theorem nodup_iterator (s : Store α V) (pre : List α) : (s.iterator pre).Nodup := by
  rw [Store.iterator, (List.mergeSort_perm _ _).nodup_iff]
  exact s.nodupKeys.nodup.filter _

/-- **The records under a prefix** are those of the table whose keys have it. -/
theorem Represents.mem_iterator (h : Represents key canon s t) {e : Sigma fun _ : List α => V} :
    e ∈ s.iterator pre ↔ ∃ k, pre <+: key k ∧ key k = e.1 ∧ t.lookup (canon k) = some e.2 := by
  rw [Store.iterator, (List.mergeSort_perm _ _).mem_iff, List.mem_filter, decide_eq_true_eq]
  constructor
  · rintro ⟨he, hpre⟩
    have hlookup : s.lookup e.1 = some e.2 := AList.mem_lookup_iff.mpr he
    obtain ⟨k, hk⟩ := h.written e.1 (by rw [hlookup]; rfl)
    rw [← hk] at hpre hlookup
    rw [h.lookup] at hlookup
    exact ⟨k, hpre, hk, hlookup⟩
  · rintro ⟨k, hpre, hk, hlookup⟩
    rw [← h.lookup, hk] at hlookup
    rw [hk] at hpre
    exact ⟨AList.mem_lookup_iff.mp hlookup, hpre⟩

end Keyed
