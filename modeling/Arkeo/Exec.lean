import Mathlib

/-! # Computations over a store

A keeper function reads and writes a store and may fail.  `EStateM` has the
semantics such functions have when nothing rolls them back: the store reached
before the failure is kept.  This module fixes the vocabulary the programs are
written in (`failIf`, `ofOption`, `logged`, `forEach`) and, for each of them,
what a successful or a failed run says about the parts.

A failure is an error, which a caller may log and pass over, or a panic, which
only the outermost caller sees (`Fault`).  A cached context is `committed`: it
keeps the store of a successful run and forgets the store of a failed one.
-/
namespace Exec

/-- How a computation fails: an error it returns, or a panic. -/
inductive Fault (ε : Type) where
  | err (e : ε)
  | panic
  deriving DecidableEq, Repr

variable {ε σ α β : Type}

/-- `if c { return e }`. -/
def failIf (c : Bool) (e : ε) : EStateM ε σ Unit :=
  fun s => if c then .error e s else .ok () s

/-- The value of an optional result, or the failure `e`. -/
def ofOption (o : Option α) (e : ε) : EStateM ε σ α :=
  fun s => match o with
    | some a => .ok a s
    | none => .error e s

/-- The value of a computation that does not touch the store, or its failure. -/
def fromExcept (x : Except ε α) : EStateM ε σ α :=
  fun s => match x with
    | .ok a => .ok a s
    | .error e => .error e s

/-- Reads a part of the store. -/
def reading (f : σ → α) : EStateM ε σ α := fun s => .ok (f s) s

/-- Rewrites the store. -/
def writing (f : σ → σ) : EStateM ε σ Unit := fun s => .ok () (f s)

/-- Runs `x` and passes over the error it may return; the store it reached is
kept.  A panic is not caught. -/
def logged (x : EStateM (Fault ε) σ Unit) : EStateM (Fault ε) σ Unit :=
  fun s => match x s with
    | .ok () s' => .ok () s'
    | .error (.err _) s' => .ok () s'
    | .error .panic s' => .error .panic s'

/-- `for _, a := range l`. -/
def forEach (body : α → EStateM ε σ Unit) : List α → EStateM ε σ Unit
  | [] => pure ()
  | a :: l => body a >>= fun _ => forEach body l

/-- The store a cached context commits: that of a successful run. -/
def committed (x : EStateM ε σ α) (s : σ) : Option σ :=
  match x s with
  | .ok _ s' => some s'
  | .error _ _ => none

/-! ## What a run says about its parts -/

theorem bind_ok {x : EStateM ε σ α} {f : α → EStateM ε σ β} {s s' : σ} {b : β} :
    (x >>= f) s = .ok b s' ↔ ∃ a t, x s = .ok a t ∧ f a t = .ok b s' := by
  change EStateM.bind x f s = _ ↔ _
  unfold EStateM.bind
  cases x s with
  | ok a t =>
    constructor
    · exact fun h => ⟨a, t, rfl, h⟩
    · rintro ⟨_, _, ⟨⟩, h⟩
      exact h
  | error e t => simp

theorem bind_error {x : EStateM ε σ α} {f : α → EStateM ε σ β} {s s' : σ} {e : ε} :
    (x >>= f) s = .error e s' ↔
      x s = .error e s' ∨ ∃ a t, x s = .ok a t ∧ f a t = .error e s' := by
  change EStateM.bind x f s = _ ↔ _
  unfold EStateM.bind
  cases x s with
  | ok a t =>
    constructor
    · exact fun h => .inr ⟨a, t, rfl, h⟩
    · rintro (⟨⟨⟩⟩ | ⟨_, _, ⟨⟩, h⟩)
      exact h
  | error e t => simp

@[simp] theorem pure_ok {a b : α} {s s' : σ} :
    (pure a : EStateM ε σ α) s = .ok b s' ↔ a = b ∧ s = s' := by
  change EStateM.Result.ok a s = _ ↔ _
  simp

@[simp] theorem pure_error {a : α} {e : ε} {s s' : σ} :
    (pure a : EStateM ε σ α) s = .error e s' ↔ False := by
  change EStateM.Result.ok a s = _ ↔ _
  simp

@[simp] theorem failIf_ok {c : Bool} {e : ε} {s s' : σ} {u : Unit} :
    failIf c e s = .ok u s' ↔ c = false ∧ s = s' := by
  cases c <;> simp [failIf]

@[simp] theorem failIf_error {c : Bool} {e e' : ε} {s s' : σ} :
    (failIf c e : EStateM ε σ Unit) s = .error e' s' ↔ c = true ∧ e = e' ∧ s = s' := by
  cases c <;> simp [failIf]

@[simp] theorem ofOption_ok {o : Option α} {e : ε} {s s' : σ} {a : α} :
    ofOption o e s = .ok a s' ↔ o = some a ∧ s = s' := by
  cases o <;> simp [ofOption]

@[simp] theorem ofOption_error {o : Option α} {e e' : ε} {s s' : σ} :
    ofOption o e s = .error e' s' ↔ o = none ∧ e = e' ∧ s = s' := by
  cases o <;> simp [ofOption]

@[simp] theorem fromExcept_ok {x : Except ε α} {s s' : σ} {a : α} :
    fromExcept x s = .ok a s' ↔ x = .ok a ∧ s = s' := by
  cases x <;> simp [fromExcept]

@[simp] theorem fromExcept_error {x : Except ε α} {e : ε} {s s' : σ} :
    (fromExcept x : EStateM ε σ α) s = .error e s' ↔ x = .error e ∧ s = s' := by
  cases x <;> simp [fromExcept]

@[simp] theorem reading_ok {f : σ → α} {s s' : σ} {a : α} :
    (reading f : EStateM ε σ α) s = .ok a s' ↔ f s = a ∧ s = s' := by
  simp [reading]

@[simp] theorem reading_error {f : σ → α} {s s' : σ} {e : ε} :
    (reading f : EStateM ε σ α) s = .error e s' ↔ False := by
  simp [reading]

@[simp] theorem writing_ok {f : σ → σ} {s s' : σ} {u : Unit} :
    (writing f : EStateM ε σ Unit) s = .ok u s' ↔ f s = s' := by
  simp [writing]

@[simp] theorem writing_error {f : σ → σ} {s s' : σ} {e : ε} :
    (writing f : EStateM ε σ Unit) s = .error e s' ↔ False := by
  simp [writing]

theorem logged_ok {x : EStateM (Fault ε) σ Unit} {s s' : σ} {u : Unit} :
    logged x s = .ok u s' ↔ x s = .ok () s' ∨ ∃ e, x s = .error (.err e) s' := by
  unfold logged
  rcases x s with ⟨⟨⟩, t⟩ | ⟨e | _, t⟩ <;> simp

theorem committed_some {x : EStateM ε σ α} {s s' : σ} :
    committed x s = some s' ↔ ∃ a, x s = .ok a s' := by
  unfold committed
  cases x s <;> simp

/-! ## A test, a choice or a read before the rest -/

theorem failIf_bind_ok {c : Bool} {e : ε} {f : Unit → EStateM ε σ β} {s s' : σ} {b : β} :
    (failIf c e >>= f) s = .ok b s' ↔ c = false ∧ f () s = .ok b s' := by
  rw [bind_ok]
  constructor
  · rintro ⟨⟨⟩, _, h, hf⟩
    obtain ⟨hc, rfl⟩ := failIf_ok.mp h
    exact ⟨hc, hf⟩
  · rintro ⟨hc, hf⟩
    exact ⟨(), s, failIf_ok.mpr ⟨hc, rfl⟩, hf⟩

theorem ofOption_bind_ok {o : Option α} {e : ε} {f : α → EStateM ε σ β} {s s' : σ} {b : β} :
    (ofOption o e >>= f) s = .ok b s' ↔ ∃ a, o = some a ∧ f a s = .ok b s' := by
  rw [bind_ok]
  constructor
  · rintro ⟨a, _, h, hf⟩
    obtain ⟨ho, rfl⟩ := ofOption_ok.mp h
    exact ⟨a, ho, hf⟩
  · rintro ⟨a, ho, hf⟩
    exact ⟨a, s, ofOption_ok.mpr ⟨ho, rfl⟩, hf⟩

theorem reading_bind {g : σ → α} {f : α → EStateM ε σ β} {s : σ} :
    (reading g >>= f) s = f (g s) s := rfl

/-! ## Computations that only read -/

/-- The store a computation leaves, whether it succeeds or fails. -/
def finalStore : EStateM.Result ε σ α → σ
  | .ok _ s => s
  | .error _ s => s

/-- The store is left as it was, also when the computation fails. -/
def ReadOnly (x : EStateM ε σ α) : Prop := ∀ s, finalStore (x s) = s

theorem ReadOnly.bind {x : EStateM ε σ α} {f : α → EStateM ε σ β} (hx : ReadOnly x)
    (hf : ∀ a, ReadOnly (f a)) : ReadOnly (x >>= f) := by
  intro s
  have h := hx s
  change finalStore (EStateM.bind x f s) = s
  unfold EStateM.bind
  cases hs : x s with
  | ok a t =>
    rw [hs] at h
    obtain rfl : t = s := h
    exact hf a t
  | error e t =>
    rw [hs] at h
    exact h

theorem readOnly_pure (a : α) : ReadOnly (pure a : EStateM ε σ α) := fun _ => rfl

theorem readOnly_reading (f : σ → α) : ReadOnly (reading f : EStateM ε σ α) := fun _ => rfl

theorem readOnly_failIf (c : Bool) (e : ε) : ReadOnly (failIf c e : EStateM ε σ Unit) := by
  intro s
  cases c <;> rfl

theorem readOnly_ofOption (o : Option α) (e : ε) : ReadOnly (ofOption o e : EStateM ε σ α) := by
  intro s
  cases o <;> rfl

theorem readOnly_fromExcept (x : Except ε α) : ReadOnly (fromExcept x : EStateM ε σ α) := by
  intro s
  cases x <;> rfl

/-- What only reads comes before the rest: either it fails and the store is as it was,
or the rest runs on that store. -/
theorem ReadOnly.bind_outcome {x : EStateM ε σ α} (hx : ReadOnly x)
    (f : α → EStateM ε σ β) (s : σ) :
    (∃ a, x s = .ok a s ∧ (x >>= f) s = f a s) ∨
      ∃ e, x s = .error e s ∧ (x >>= f) s = .error e s := by
  have h := hx s
  change (∃ a, _ ∧ EStateM.bind x f s = _) ∨ ∃ e, _ ∧ EStateM.bind x f s = _
  unfold EStateM.bind
  cases hs : x s with
  | ok a t =>
    rw [hs] at h
    obtain rfl : t = s := h
    exact .inl ⟨a, rfl, rfl⟩
  | error e t =>
    rw [hs] at h
    obtain rfl : t = s := h
    exact .inr ⟨e, rfl, rfl⟩

/-- A test before the rest. -/
theorem ReadOnly.bind_cases {x : EStateM ε σ Unit} (hx : ReadOnly x)
    (f : Unit → EStateM ε σ β) (s : σ) :
    (x s = .ok () s ∧ (x >>= f) s = f () s) ∨ ∃ e, (x >>= f) s = .error e s := by
  rcases hx.bind_outcome f s with ⟨_, hs, h⟩ | ⟨e, -, h⟩
  · exact .inl ⟨hs, h⟩
  · exact .inr ⟨e, h⟩

/-! ## Computations that fail without a trace -/

/-- A failure leaves the store as it was. -/
def Atomic (x : EStateM ε σ α) : Prop := ∀ s s' e, x s = .error e s' → s' = s

theorem ReadOnly.atomic {x : EStateM ε σ α} (hx : ReadOnly x) : Atomic x := by
  intro s s' e h
  have hs := hx s
  rw [h] at hs
  exact hs

theorem atomic_writing (f : σ → σ) : Atomic (writing f : EStateM ε σ Unit) := by
  intro s s' e h
  cases h

/-- What only reads comes before what fails without a trace. -/
theorem ReadOnly.bind_atomic {x : EStateM ε σ α} {f : α → EStateM ε σ β} (hx : ReadOnly x)
    (hf : ∀ a, Atomic (f a)) : Atomic (x >>= f) := by
  intro s s' e h
  rcases hx.bind_outcome f s with ⟨a, -, hb⟩ | ⟨e', -, hb⟩
  · exact hf a s s' e (hb.symm.trans h)
  · rw [hb] at h
    cases h
    rfl

/-! ## Loops -/

@[simp] theorem forEach_nil_ok {body : α → EStateM ε σ Unit} {s s' : σ} {u : Unit} :
    forEach body [] s = .ok u s' ↔ s = s' := by
  simp [forEach]

theorem forEach_cons_ok {body : α → EStateM ε σ Unit} {a : α} {l : List α} {s s' : σ} {u : Unit} :
    forEach body (a :: l) s = .ok u s' ↔ ∃ t, body a s = .ok () t ∧ forEach body l t = .ok u s' := by
  rw [forEach, bind_ok]
  constructor
  · rintro ⟨⟨⟩, t, h, h'⟩
    exact ⟨t, h, h'⟩
  · rintro ⟨t, h, h'⟩
    exact ⟨(), t, h, h'⟩

/-- **The loop rule.**  `P` speaks of the elements still to come; each pass that
succeeds hands it on to the rest. -/
theorem forEach_induct {body : α → EStateM ε σ Unit} {P : List α → σ → Prop}
    (step : ∀ a l s s', P (a :: l) s → body a s = .ok () s' → P l s') {l : List α} {s s' : σ}
    (hs : P l s) (h : forEach body l s = .ok () s') : P [] s' := by
  induction l generalizing s with
  | nil =>
    obtain rfl := forEach_nil_ok.mp h
    exact hs
  | cons a l ih =>
    obtain ⟨t, hb, hl⟩ := forEach_cons_ok.mp h
    exact ih (step a l s t hs hb) hl

/-! ## Computations that preserve a property -/

/-- A property of the store survives the computation, also when it fails. -/
def Preserves (P : σ → Prop) (x : EStateM ε σ α) : Prop := ∀ s, P s → P (finalStore (x s))

section Preserves
variable {P : σ → Prop}

theorem ReadOnly.preserves {x : EStateM ε σ α} (hx : ReadOnly x) : Preserves P x := by
  intro s hs
  rw [hx s]
  exact hs

theorem Preserves.bind {x : EStateM ε σ α} {f : α → EStateM ε σ β} (hx : Preserves P x)
    (hf : ∀ a, Preserves P (f a)) : Preserves P (x >>= f) := by
  intro s hs
  have h := hx s hs
  change P (finalStore (EStateM.bind x f s))
  unfold EStateM.bind
  cases hr : x s with
  | ok a t =>
    rw [hr] at h
    exact hf a t h
  | error e t =>
    rw [hr] at h
    exact h

/-- What comes after a test may rely on it. -/
theorem Preserves.failIf {c : Bool} {e : ε} {f : Unit → EStateM ε σ β}
    (hf : c = false → Preserves P (f ())) : Preserves P (Exec.failIf c e >>= f) := by
  intro s hs
  change P (finalStore (EStateM.bind (Exec.failIf c e) f s))
  cases hc : c with
  | true => exact hs
  | false => exact hf hc s hs

theorem Preserves.writing {f : σ → σ} (hf : ∀ s, P s → P (f s)) :
    Preserves P (Exec.writing f : EStateM ε σ Unit) :=
  hf

theorem Preserves.logged {x : EStateM (Fault ε) σ Unit} (hx : Preserves P x) :
    Preserves P (Exec.logged x) := by
  intro s hs
  have h := hx s hs
  unfold Exec.logged
  rcases hr : x s with ⟨⟨⟩, t⟩ | ⟨e | _, t⟩ <;> rw [hr] at h <;> exact h

theorem Preserves.forEach {body : α → EStateM ε σ Unit} (hb : ∀ a, Preserves P (body a))
    (l : List α) : Preserves P (Exec.forEach body l) := by
  induction l with
  | nil => exact (readOnly_pure ()).preserves
  | cons a l ih => exact (hb a).bind fun _ => ih

/-- What a cached context commits. -/
theorem Preserves.committed {x : EStateM ε σ α} (hx : Preserves P x) {s s' : σ} (hs : P s)
    (h : committed x s = some s') : P s' := by
  obtain ⟨a, hr⟩ := committed_some.mp h
  have := hx s hs
  rw [hr] at this
  exact this

end Preserves

end Exec
