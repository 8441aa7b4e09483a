import Mathlib.Data.List.Induction

/-! # Runs of a transition function

A system is a partial step function: `step s a` is the state after action `a`,
`none` when `a` cannot be taken in `s`.  A run is a list of actions taken one
after the other.  `run_induct` is the invariant rule; `run_induct_of_guarded` is
the same rule for runs every step of which meets a guard (`Guarded`), which is
how a property that only holds under a condition on the steps is stated.
-/
namespace Runs

variable {σ α : Type} (step : σ → α → Option σ)

/-- The state a list of actions leads to. -/
def run : σ → List α → Option σ
  | s, [] => some s
  | s, a :: l => (step s a).bind fun s' => run s' l

/-- Every step the run takes meets the guard `G` in the state it is taken from. -/
def Guarded (G : σ → α → Prop) : σ → List α → Prop
  | _, [] => True
  | s, a :: l => G s a ∧ ∀ s', step s a = some s' → Guarded G s' l

/-- A decidable guard can be checked along a run. -/
instance decidableGuarded (G : σ → α → Prop) [∀ s a, Decidable (G s a)] :
    ∀ s l, Decidable (Guarded step G s l)
  | _, [] => isTrue trivial
  | s, a :: l =>
      match hs : step s a with
      | none => decidable_of_iff (G s a) (by simp [Guarded, hs])
      | some s' =>
          have := decidableGuarded G s' l
          decidable_of_iff (G s a ∧ Guarded step G s' l) (by simp [Guarded, hs])

variable {step}

/-- A guard that the actions meet in any state. -/
theorem guarded_of_mem {G : σ → α → Prop} {l : List α} (hG : ∀ s, ∀ a ∈ l, G s a) (s : σ) :
    Guarded step G s l := by
  induction l generalizing s with
  | nil => trivial
  | cons a l ih =>
    exact ⟨hG s a (List.mem_cons_self ..),
      fun s' _ => ih (fun t b hb => hG t b (List.mem_cons_of_mem a hb)) s'⟩

/-- A property of all actions is a guard. -/
theorem guarded_of_forall {Q : α → Prop} {l : List α} (hq : ∀ a ∈ l, Q a) (s : σ) :
    Guarded step (fun _ a => Q a) s l :=
  guarded_of_mem (fun _ => hq) s

/-- A property of all actions can be added to the guard. -/
theorem Guarded.and_forall {G : σ → α → Prop} {Q : α → Prop} {s : σ} {l : List α}
    (h : Guarded step G s l) (hq : ∀ a ∈ l, Q a) : Guarded step (fun s a => G s a ∧ Q a) s l := by
  induction l generalizing s with
  | nil => trivial
  | cons a l ih =>
    obtain ⟨ha, hl⟩ := List.forall_mem_cons.mp hq
    exact ⟨⟨h.1, ha⟩, fun s' hs => ih (h.2 s' hs) hl⟩

@[simp] theorem run_nil (s : σ) : run step s [] = some s := rfl

theorem run_cons {s s' : σ} {a : α} {l : List α} :
    run step s (a :: l) = some s' ↔ ∃ t, step s a = some t ∧ run step t l = some s' := by
  simp [run, Option.bind_eq_some_iff]

/-- A run does not depend on what a step does with other actions than its own. -/
theorem run_congr {step' : σ → α → Option σ} {l : List α}
    (h : ∀ a ∈ l, ∀ s, step s a = step' s a) (s : σ) : run step s l = run step' s l := by
  induction l generalizing s with
  | nil => rfl
  | cons a l ih =>
    obtain ⟨ha, hl⟩ := List.forall_mem_cons.mp h
    simp only [run, ha]
    exact congrArg _ (funext fun t => ih hl t)

theorem run_append {s s' : σ} {l l' : List α} :
    run step s (l ++ l') = some s' ↔ ∃ t, run step s l = some t ∧ run step t l' = some s' := by
  induction l generalizing s with
  | nil => simp
  | cons a l ih =>
    rw [List.cons_append, run_cons]
    constructor
    · rintro ⟨t, ht, h⟩
      obtain ⟨u, hu, h'⟩ := ih.mp h
      exact ⟨u, run_cons.mpr ⟨t, ht, hu⟩, h'⟩
    · rintro ⟨u, hu, h'⟩
      obtain ⟨t, ht, h⟩ := run_cons.mp hu
      exact ⟨t, ht, ih.mpr ⟨u, h, h'⟩⟩

/-- A run goes on from where its first part led. -/
theorem run_append_of {s t : σ} {l : List α} (h : run step s l = some t) (l' : List α) :
    run step s (l ++ l') = run step t l' := by
  induction l generalizing s with
  | nil =>
    cases h
    rfl
  | cons a l ih =>
    obtain ⟨u, hu, hl⟩ := run_cons.mp h
    rw [List.cons_append, run, hu]
    exact ih hl

/-- The guard can be checked on one part of a run after the other. -/
theorem guarded_append {G : σ → α → Prop} {s : σ} {l l' : List α} :
    Guarded step G s (l ++ l') ↔
      Guarded step G s l ∧ ∀ t, run step s l = some t → Guarded step G t l' := by
  induction l generalizing s with
  | nil => simp [Guarded]
  | cons a l ih =>
    simp only [List.cons_append, Guarded, ih, run_cons]
    constructor
    · rintro ⟨ha, hl⟩
      refine ⟨⟨ha, fun t ht => (hl t ht).1⟩, ?_⟩
      rintro u ⟨t, ht, hu⟩
      exact (hl t ht).2 u hu
    · rintro ⟨⟨ha, hl⟩, hl'⟩
      exact ⟨ha, fun t ht => ⟨hl t ht, fun u hu => hl' u ⟨t, ht, hu⟩⟩⟩

theorem Guarded.append {G : σ → α → Prop} {s t : σ} {l l' : List α} (h : Guarded step G s l)
    (hrun : run step s l = some t) (h' : Guarded step G t l') : Guarded step G s (l ++ l') := by
  refine guarded_append.mpr ⟨h, fun u hu => ?_⟩
  obtain rfl : t = u := Option.some.inj (hrun.symm.trans hu)
  exact h'

/-- **The invariant rule.** -/
theorem run_induct {P : σ → Prop} (hstep : ∀ s a s', P s → step s a = some s' → P s')
    {s s' : σ} {l : List α} (hs : P s) (h : run step s l = some s') : P s' := by
  induction l generalizing s with
  | nil =>
    obtain rfl := Option.some.inj h
    exact hs
  | cons a l ih =>
    obtain ⟨t, ht, hl⟩ := run_cons.mp h
    exact ih (hstep s a t hs ht) hl

/-- **The invariant rule with history.**  The property may also speak of the
actions taken so far. -/
theorem run_induct_history {P : List α → σ → Prop} {s s' : σ} {l : List α} (hs : P [] s)
    (hstep : ∀ l t a t', run step s l = some t → P l t → step t a = some t' → P (l ++ [a]) t')
    (h : run step s l = some s') : P l s' := by
  induction l using List.reverseRecOn generalizing s' with
  | nil =>
    obtain rfl := Option.some.inj h
    exact hs
  | append_singleton l a ih =>
    obtain ⟨t, ht, hl⟩ := run_append.mp h
    obtain ⟨t', ht', hn⟩ := run_cons.mp hl
    obtain rfl := Option.some.inj hn
    exact hstep l t a t' ht (ih ht) ht'

/-- What comes to hold in a run comes to hold in one of its steps. -/
theorem run_turn {P : σ → Prop} {s s' : σ} {l : List α} (hs : ¬P s)
    (h : run step s l = some s') (hs' : P s') : ∃ pre a post t t', l = pre ++ a :: post ∧
      run step s pre = some t ∧ ¬P t ∧ step t a = some t' ∧ P t' ∧ run step t' post = some s' := by
  induction l generalizing s with
  | nil =>
    obtain rfl := Option.some.inj h
    exact absurd hs' hs
  | cons a l ih =>
    obtain ⟨t, ht, hl⟩ := run_cons.mp h
    by_cases hp : P t
    · exact ⟨[], a, l, s, t, rfl, rfl, hs, ht, hp, hl⟩
    · obtain ⟨pre, b, post, u, u', rfl, hpre, hu, hstep, hu', hpost⟩ := ih hp hl
      exact ⟨a :: pre, b, post, u, u', rfl, run_cons.mpr ⟨t, ht, hpre⟩, hu, hstep, hu', hpost⟩

/-- **The invariant rule for guarded runs.** -/
theorem run_induct_of_guarded {G : σ → α → Prop} {P : σ → Prop}
    (hstep : ∀ s a s', P s → G s a → step s a = some s' → P s') {s s' : σ} {l : List α}
    (hs : P s) (hg : Guarded step G s l) (h : run step s l = some s') : P s' := by
  induction l generalizing s with
  | nil =>
    obtain rfl := Option.some.inj h
    exact hs
  | cons a l ih =>
    obtain ⟨t, ht, hl⟩ := run_cons.mp h
    exact ih (hstep s a t hs hg.1 ht) (hg.2 t ht) hl

/-- **An exact guard, with history.**  Where a step keeps `P` if and only if it meets the
guard, a run meets the guard throughout if and only if every state it passes has `P`.  The
property may also speak of the actions taken so far. -/
theorem guarded_iff_forall_history {G : σ → α → Prop} {P : List α → σ → Prop} {s : σ} {l : List α}
    (hs : P [] s) (hnone : ∀ t a, step t a = none → G t a)
    (hstep : ∀ l t a t', run step s l = some t → P l t → step t a = some t' →
      (G t a ↔ P (l ++ [a]) t')) :
    Guarded step G s l ↔ ∀ l₁ l₂ t, l = l₁ ++ l₂ → run step s l₁ = some t → P l₁ t := by
  induction l using List.reverseRecOn with
  | nil =>
    refine ⟨?_, fun _ => trivial⟩
    intro _ l₁ l₂ t hl ht
    obtain ⟨rfl, -⟩ := List.append_eq_nil_iff.mp hl.symm
    obtain rfl := Option.some.inj ht
    exact hs
  | append_singleton l a ih =>
    rw [guarded_append, ih]
    constructor
    · rintro ⟨hl, ha⟩ l₁ l₂ t heq ht
      rcases List.eq_nil_or_concat l₂ with rfl | ⟨l₂, b, rfl⟩
      · -- the whole run
        rw [List.append_nil] at heq
        subst heq
        obtain ⟨u, hu, hrun⟩ := run_append.mp ht
        obtain ⟨t', ht', hn⟩ := run_cons.mp hrun
        obtain rfl := Option.some.inj hn
        exact (hstep l u a t' hu (hl l [] u (List.append_nil l).symm hu) ht').mp (ha u hu).1
      · rw [List.concat_eq_append, ← List.append_assoc] at heq
        exact hl l₁ l₂ t (List.append_inj' heq rfl).1 ht
    · intro h
      refine ⟨fun l₁ l₂ t heq ht => h l₁ (l₂ ++ [a]) t (by rw [heq, List.append_assoc]) ht, ?_⟩
      intro t ht
      refine ⟨?_, fun _ _ => trivial⟩
      cases hu : step t a with
      | none => exact hnone t a hu
      | some u =>
        refine (hstep l t a u ht (h l [a] t rfl ht) hu).mpr ?_
        refine h (l ++ [a]) [] u (List.append_nil _).symm ?_
        exact run_append.mpr ⟨t, ht, run_cons.mpr ⟨u, hu, rfl⟩⟩

/-- **An exact guard**, for a property of the state.  What all reachable states have may be
used. -/
theorem guarded_iff_forall {G : σ → α → Prop} {I P : σ → Prop}
    (hI : ∀ s a s', I s → step s a = some s' → I s') (hnone : ∀ s a, step s a = none → G s a)
    (hstep : ∀ s a s', I s → P s → step s a = some s' → (G s a ↔ P s')) {s : σ} {l : List α}
    (hi : I s) (hs : P s) :
    Guarded step G s l ↔ ∀ l₁ l₂ t, l = l₁ ++ l₂ → run step s l₁ = some t → P t := by
  refine guarded_iff_forall_history (P := fun _ => P) hs hnone ?_
  intro l t a t' hrun hp ht
  exact hstep t a t' (run_induct hI hi hrun) hp ht

/-- **An exact guard**, for a property that is not inductive by itself: `Q` is what it comes
to as long as it holds. -/
theorem guarded_iff_forall_of_inductive {G : σ → α → Prop} {P Q : σ → Prop}
    (hnone : ∀ s a, step s a = none → G s a)
    (hstep : ∀ s a s', Q s → step s a = some s' → (G s a ↔ P s'))
    (hkeep : ∀ s a s', Q s → step s a = some s' → P s' → Q s') (himp : ∀ s, Q s → P s) {s : σ}
    {l : List α} (hs : Q s) :
    Guarded step G s l ↔ ∀ l₁ l₂ t, l = l₁ ++ l₂ → run step s l₁ = some t → P t := by
  have hexact : Guarded step G s l ↔
      ∀ l₁ l₂ t, l = l₁ ++ l₂ → run step s l₁ = some t → Q t := by
    refine guarded_iff_forall (I := fun _ => True) (fun _ _ _ _ _ => trivial) hnone ?_ trivial hs
    intro t a t' _ hq ht
    rw [hstep t a t' hq ht]
    exact ⟨hkeep t a t' hq ht, himp t'⟩
  rw [hexact]
  constructor
  · intro h l₁ l₂ t heq ht
    exact himp t (h l₁ l₂ t heq ht)
  · intro h l₁ l₂ t heq ht
    -- `Q` follows along the run, as all its states have `P`
    induction l₁ using List.reverseRecOn generalizing l₂ t with
    | nil =>
      obtain rfl := Option.some.inj ht
      exact hs
    | append_singleton l₁ a ih =>
      have hp := h _ l₂ t heq ht
      obtain ⟨u, hu, hrun⟩ := run_append.mp ht
      obtain ⟨t', ht', hn⟩ := run_cons.mp hrun
      obtain rfl := Option.some.inj hn
      refine hkeep u a t' (ih (a :: l₂) u ?_ hu) ht' hp
      rw [heq, List.append_assoc, List.singleton_append]

/-! ## Replaying

An action that overwrites part of a state gives the same when it is taken twice, and what
it leaves alone it leaves alone: states that agree after it agree after it also when
another action was taken before.  A list of such actions can be replayed. -/

section Replay
variable {act : σ → α → σ}

/-- States that agree after an action agree after the same actions and this one. -/
theorem act_foldl_congr (hcongr : ∀ s t a b, act s a = act t a → act (act s b) a = act (act t b) a)
    {s t : σ} {a : α} (h : act s a = act t a) (l : List α) :
    act (l.foldl act s) a = act (l.foldl act t) a := by
  induction l generalizing s t with
  | nil => exact h
  | cons b l ih => exact ih (hcongr s t a b h)

/-- **A replay changes nothing.** -/
theorem foldl_replay (hidem : ∀ s a, act (act s a) a = act s a)
    (hcongr : ∀ s t a b, act s a = act t a → act (act s b) a = act (act t b) a) (s : σ)
    (l : List α) : l.foldl act (l.foldl act s) = l.foldl act s := by
  induction l using List.reverseRecOn with
  | nil => rfl
  | append_singleton l a ih =>
    have hconcat : ∀ t, (l ++ [a]).foldl act t = act (l.foldl act t) a := by
      intro t
      rw [List.foldl_append, List.foldl_cons, List.foldl_nil]
    rw [hconcat, hconcat]
    -- the last action hides that it was taken before the others
    have hlast := act_foldl_congr hcongr (hidem (l.foldl act s) a) l
    rw [hlast, ih]

end Replay

end Runs
