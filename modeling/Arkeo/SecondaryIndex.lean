import Mathlib.Data.List.Induction
import Arkeo.Ledger

/-! # A store with a secondary index

Records are stored under a key that is made from the record, and a second store finds the
key by an id that the record carries.  The two are kept by separate writes.  They are
inverse to each other when every record is found by its id and every entry of the index
leads to a record with that id (`Inverse`).

Both stores are what a list of records leaves when it is written one by one, so that the
last record of a key and the last record of an id decide (`lookup_load`); the result is
inverse when these are the same records (`inverse_load`).
-/
namespace AList

variable {α κ ν : Type} [DecidableEq κ]

/-- Every record has a property, with its key. -/
def All (Q : κ → ν → Prop) (m : AList fun _ : κ => ν) : Prop := ∀ k v, m.lookup k = some v → Q k v

theorem All.empty (Q : κ → ν → Prop) : All Q ∅ := nofun

theorem All.insert {Q : κ → ν → Prop} {m : AList fun _ : κ => ν} (h : All Q m) {k : κ} {v : ν}
    (hq : Q k v) : All Q (m.insert k v) := by
  intro k' v' hv
  by_cases hk : k' = k
  · subst hk
    rw [lookup_insert] at hv
    obtain rfl := Option.some.inj hv
    exact hq
  · rw [lookup_insert_ne hk] at hv
    exact h k' v' hv

theorem All.erase {Q : κ → ν → Prop} {m : AList fun _ : κ => ν} (h : All Q m) (k : κ) :
    All Q (m.erase k) := by
  intro k' v' hv
  by_cases hk : k' = k
  · subst hk
    rw [lookup_erase] at hv
    cases hv
  · rw [lookup_erase_ne hk] at hv
    exact h k' v' hv

/-- A store without records is empty. -/
theorem eq_empty_of_all {m : AList fun _ : κ => ν} (h : All (fun _ _ => False) m) : m = ∅ := by
  refine AList.ext (List.eq_nil_iff_forall_not_mem.mpr ?_)
  rintro ⟨k, v⟩ he
  exact h k v (mem_entries.mp he)

/-- A store that is not empty has a record. -/
theorem exists_lookup {m : AList fun _ : κ => ν} (h : m ≠ ∅) : ∃ k v, m.lookup k = some v := by
  by_contra hnone
  apply h
  refine eq_empty_of_all fun k v hv => ?_
  exact hnone ⟨k, v, hv⟩

/-- Writes the elements of a list one after the other. -/
def load (f : α → κ) (g : α → ν) (l : List α) (m : AList fun _ : κ => ν) : AList fun _ : κ => ν :=
  l.foldl (fun m a => m.insert (f a) (g a)) m

/-- The last element of a list with a key. -/
def lastWith (f : α → κ) (l : List α) (k : κ) : Option α := l.reverse.find? fun a => f a = k

theorem lastWith_append (f : α → κ) (l : List α) (a : α) (k : κ) :
    lastWith f (l ++ [a]) k = if f a = k then some a else lastWith f l k := by
  unfold lastWith
  rw [List.reverse_append, List.reverse_singleton, List.singleton_append, List.find?_cons]
  by_cases h : f a = k <;> simp [h]

theorem lastWith_mem {f : α → κ} {l : List α} {k : κ} {a : α} (h : lastWith f l k = some a) :
    a ∈ l ∧ f a = k :=
  ⟨List.mem_reverse.mp (List.mem_of_find?_eq_some h), by simpa using List.find?_some h⟩

/-- **What a list leaves.**  The last element with a key decides. -/
theorem lookup_load (f : α → κ) (g : α → ν) (l : List α) (m : AList fun _ : κ => ν) (k : κ) :
    (load f g l m).lookup k = ((lastWith f l k).map g).or (m.lookup k) := by
  induction l using List.reverseRecOn with
  | nil => rfl
  | append_singleton l a ih =>
    unfold load at ih ⊢
    rw [List.foldl_append, List.foldl_cons, List.foldl_nil, lastWith_append]
    by_cases h : f a = k
    · subst h
      rw [lookup_insert, if_pos rfl]
      rfl
    · rw [lookup_insert_ne (Ne.symm h), ih, if_neg h]

/-- A key that does not occur is not found. -/
theorem lastWith_of_notMem {f : α → κ} {l : List α} {k : κ} (h : k ∉ l.map f) :
    lastWith f l k = none := by
  cases hlast : lastWith f l k with
  | none => rfl
  | some a =>
    obtain ⟨ha, hf⟩ := lastWith_mem hlast
    exact absurd (List.mem_map.mpr ⟨a, ha, hf⟩) h

/-- Keys that occur once are found where they are. -/
theorem lastWith_of_nodup {f : α → κ} {l : List α} (hn : (l.map f).Nodup) {a : α} (ha : a ∈ l) :
    lastWith f l (f a) = some a := by
  cases h : lastWith f l (f a) with
  | none =>
    have := List.find?_eq_none.mp h a (List.mem_reverse.mpr ha)
    simp at this
  | some b =>
    obtain ⟨hb, hf⟩ := lastWith_mem h
    rw [List.inj_on_of_nodup_map hn hb ha hf]

/-- **Writing back what was read.**  A store is rebuilt from its values when each is
stored under its own key. -/
theorem lookup_load_values {f : ν → κ} {m : AList fun _ : κ => ν}
    (hkey : ∀ k v, m.lookup k = some v → f v = k) {l : List ν}
    (hl : l.Perm (m.entries.map Sigma.snd)) (k : κ) :
    (load f id l ∅).lookup k = m.lookup k := by
  have hentry : ∀ e ∈ m.entries, f e.2 = e.1 := fun e he => hkey e.1 e.2 (mem_entries.mp he)
  have hkeys : (l.map f).Nodup := by
    refine (hl.map f).nodup_iff.mpr ?_
    rw [List.map_map, show m.entries.map (f ∘ Sigma.snd) = m.entries.map Sigma.fst from
      List.map_congr_left hentry]
    exact m.nodupKeys
  rw [lookup_load, lookup_empty, Option.or_none, Option.map_id_fun, id_eq]
  cases hm : m.lookup k with
  | some v =>
    have hv : v ∈ l := by
      refine hl.mem_iff.mpr ?_
      exact List.mem_map.mpr ⟨⟨k, v⟩, mem_entries.mpr hm, rfl⟩
    have hlast := lastWith_of_nodup hkeys hv
    rw [hkey k v hm] at hlast
    exact hlast
  | none =>
    cases hlast : lastWith f l k with
    | none => rfl
    | some v =>
      obtain ⟨hv, hf⟩ := lastWith_mem hlast
      obtain ⟨e, he, rfl⟩ := List.mem_map.mp (hl.mem_iff.mp hv)
      have hke : e.1 = k := (hentry e he).symm.trans hf
      rw [← hke, mem_entries.mp he] at hm
      cases hm

end AList

namespace SecondaryIndex
open AList

variable {κ ι ρ : Type} [DecidableEq κ] [DecidableEq ι]

/-- The store of the records and the index of their keys are inverse to each other. -/
structure Inverse (idOf : ρ → ι) (records : AList fun _ : κ => ρ) (index : AList fun _ : ι => κ) :
    Prop where
  indexed : ∀ k r, records.lookup k = some r → index.lookup (idOf r) = some k
  points : ∀ i k, index.lookup i = some k → ∃ r, records.lookup k = some r ∧ idOf r = i

variable {idOf : ρ → ι} {records : AList fun _ : κ => ρ} {index : AList fun _ : ι => κ} {k : κ}
  {r r₀ : ρ}

/-- No two records share an id. -/
theorem Inverse.key_eq (h : Inverse idOf records index) {k' : κ} {r' : ρ}
    (hr : records.lookup k = some r) (hr' : records.lookup k' = some r') (hid : idOf r = idOf r') :
    k = k' := by
  have hk := h.indexed k r hr
  rw [hid, h.indexed k' r' hr'] at hk
  exact (Option.some.inj hk).symm

/-- A record with a new key and a new id. -/
theorem Inverse.insert (h : Inverse idOf records index) (hkey : records.lookup k = none)
    (hid : index.lookup (idOf r) = none) :
    Inverse idOf (records.insert k r) (index.insert (idOf r) k) where
  indexed k' r' hr' := by
    by_cases hk : k' = k
    · subst hk
      rw [lookup_insert] at hr'
      obtain rfl := Option.some.inj hr'
      exact lookup_insert _
    · rw [lookup_insert_ne hk] at hr'
      have hindex := h.indexed k' r' hr'
      rw [lookup_insert_ne, hindex]
      intro heq
      rw [heq, hid] at hindex
      cases hindex
  points i k' hi := by
    by_cases hi' : i = idOf r
    · subst hi'
      rw [lookup_insert] at hi
      obtain rfl := Option.some.inj hi
      exact ⟨r, lookup_insert _, rfl⟩
    · rw [lookup_insert_ne hi'] at hi
      obtain ⟨r', hr', hid'⟩ := h.points i k' hi
      refine ⟨r', ?_, hid'⟩
      rw [lookup_insert_ne, hr']
      rintro rfl
      rw [hkey] at hr'
      cases hr'

/-- A record that takes the place of one with its id. -/
theorem Inverse.replace (h : Inverse idOf records index) (hkey : records.lookup k = some r₀)
    (hid : idOf r₀ = idOf r) : Inverse idOf (records.insert k r) (index.insert (idOf r) k) where
  indexed k' r' hr' := by
    by_cases hk : k' = k
    · subst hk
      rw [lookup_insert] at hr'
      obtain rfl := Option.some.inj hr'
      exact lookup_insert _
    · rw [lookup_insert_ne hk] at hr'
      rw [lookup_insert_ne, h.indexed k' r' hr']
      intro heq
      exact hk (h.key_eq hr' hkey (heq.trans hid.symm))
  points i k' hi := by
    by_cases hi' : i = idOf r
    · subst hi'
      rw [lookup_insert] at hi
      obtain rfl := Option.some.inj hi
      exact ⟨r, lookup_insert _, rfl⟩
    · rw [lookup_insert_ne hi'] at hi
      obtain ⟨r', hr', hid'⟩ := h.points i k' hi
      refine ⟨r', ?_, hid'⟩
      rw [lookup_insert_ne, hr']
      rintro rfl
      rw [hkey] at hr'
      obtain rfl := Option.some.inj hr'
      exact hi' (hid'.symm.trans hid)

/-- A record that is taken out with its entry. -/
theorem Inverse.erase (h : Inverse idOf records index) (hkey : records.lookup k = some r) :
    Inverse idOf (records.erase k) (index.erase (idOf r)) where
  indexed k' r' hr' := by
    by_cases hk : k' = k
    · subst hk
      rw [lookup_erase] at hr'
      cases hr'
    · rw [lookup_erase_ne hk] at hr'
      rw [lookup_erase_ne, h.indexed k' r' hr']
      exact fun heq => hk (h.key_eq hr' hkey heq)
  points i k' hi := by
    by_cases hi' : i = idOf r
    · subst hi'
      rw [lookup_erase] at hi
      cases hi
    · rw [lookup_erase_ne hi'] at hi
      obtain ⟨r', hr', hid'⟩ := h.points i k' hi
      refine ⟨r', ?_, hid'⟩
      rw [lookup_erase_ne, hr']
      rintro rfl
      rw [hkey] at hr'
      obtain rfl := Option.some.inj hr'
      exact hi' hid'.symm

/-! ## Stores that are written from a list -/

/-- What is listed last under its key is what is listed last under its id. -/
def Coherent (keyOf : ρ → κ) (idOf : ρ → ι) (l : List ρ) : Prop :=
  ∀ r ∈ l, lastWith keyOf l (keyOf r) = some r ↔ lastWith idOf l (idOf r) = some r

theorem coherent_of_nodup {keyOf : ρ → κ} {l : List ρ} (hkeys : (l.map keyOf).Nodup)
    (hids : (l.map idOf).Nodup) : Coherent keyOf idOf l :=
  fun _ hr => iff_of_true (lastWith_of_nodup hkeys hr) (lastWith_of_nodup hids hr)

/-- **A list that is coherent is written to inverse stores.** -/
theorem inverse_load {keyOf : ρ → κ} {l : List ρ} (hc : Coherent keyOf idOf l) :
    Inverse idOf (load keyOf id l ∅) (load idOf keyOf l ∅) where
  indexed k r hr := by
    rw [lookup_load, lookup_empty, Option.or_none, Option.map_id_fun, id_eq] at hr
    obtain ⟨hmem, hk⟩ := lastWith_mem hr
    have hlast : lastWith idOf l (idOf r) = some r := (hc r hmem).mp (by rw [hk, hr])
    rw [lookup_load, hlast, Option.map_some, Option.some_or, hk]
  points i k hi := by
    rw [lookup_load, lookup_empty, Option.or_none] at hi
    obtain ⟨r, hr, hk⟩ := Option.map_eq_some_iff.mp hi
    obtain ⟨hmem, hid⟩ := lastWith_mem hr
    have hlast : lastWith keyOf l (keyOf r) = some r := (hc r hmem).mpr (by rw [hid, hr])
    refine ⟨r, ?_, hid⟩
    rw [← hk, lookup_load, hlast, Option.map_some, Option.some_or, id_eq]

/-! ## What the records say about the index -/

/-- The records alone decide the index. -/
theorem Inverse.lookup_index (h : Inverse idOf records index) {records' : AList fun _ : κ => ρ}
    {index' : AList fun _ : ι => κ} (h' : Inverse idOf records' index')
    (hsame : ∀ k, records'.lookup k = records.lookup k) (i : ι) :
    index'.lookup i = index.lookup i := by
  refine Option.ext fun k => ⟨fun hk => ?_, fun hk => ?_⟩
  · obtain ⟨r, hr, rfl⟩ := h'.points i k hk
    rw [hsame] at hr
    exact h.indexed k r hr
  · obtain ⟨r, hr, rfl⟩ := h.points i k hk
    rw [← hsame] at hr
    exact h'.indexed k r hr

/-- No id comes twice among the records. -/
theorem Inverse.nodup_ids (h : Inverse idOf records index) {l : List ρ}
    (hl : l.Perm (records.entries.map Sigma.snd)) : (l.map idOf).Nodup := by
  refine (hl.map idOf).nodup_iff.mpr ?_
  rw [List.map_map]
  refine List.Nodup.map_on ?_ (List.Nodup.of_map Sigma.fst records.nodupKeys)
  rintro ⟨k, r⟩ hr ⟨k', r'⟩ hr' hid
  have hlookup := mem_entries.mp hr
  have hlookup' := mem_entries.mp hr'
  obtain rfl := h.key_eq hlookup hlookup' hid
  obtain rfl := Option.some.inj (hlookup.symm.trans hlookup')
  rfl

end SecondaryIndex
