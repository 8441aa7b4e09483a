import Arkeo.Sentinel.Claimable

/-! # Concurrent calls

`paidTier` looks at the stored claim and replaces it in separate operations of the
store, with no lock over them, and `handleMarkClaimed` writes back a claim from a
list it has read before.  Here calls are processes whose steps are the single
operations, interleaved by a schedule.

A `Set` is undisturbed if what the call has read of the store still holds of it.
When all are, no nonce is served twice and no stored nonce decreases, and only then
(`calls_safe_iff_undisturbed`); a call on its own is undisturbed and does what the
sequential model says (`pay_alone`, `mark_alone`).  Two requests with one nonce that
both look before either writes are both served (`nonce_served_to_both`).
-/
namespace Arkeo.Sentinel
open Exec Text

variable {cr : Crypto} {cfg : Config} {s s' : State} {k : ℕ}

/-! ## Calls as processes -/

/-- Where a call stands: what it does next, or how it has ended. -/
inductive Process where
  /-- A call of `paidTier` that has passed the tests, before `Has`. -/
  | pay (c : CachedContract) (aa : ArkAuth)
  /-- There is a claim; before `Get`. -/
  | checking (c : CachedContract) (aa : ArkAuth)
  /-- Before `Set` of the claim. -/
  | storing (c : CachedContract) (aa : ArkAuth) (claim : Claim)
  | served (contractId : ℕ) (nonce : Int64)
  | refused (e : TierError)
  /-- The usage could not be logged. -/
  | aborted
  /-- A call of `handleMarkClaimed`, before `List`. -/
  | mark (contractId nonce : ℕ)
  /-- Before `Set` of the claim from the list. -/
  | flipping (claim : Claim)
  | marked (updated : Bool)
  deriving DecidableEq, Repr

/-- The call has not begun. -/
def Process.isCall : Process → Bool
  | .pay _ _ => true
  | .mark _ _ => true
  | _ => false

/-- One operation of a call on the store. -/
def Process.advance (cfg : Config) (s : State) : Process → Process × State
  | .pay c aa =>
      if (s.claims.lookup aa.contractId).isSome then (.checking c aa, s)
      else (.storing c aa (claimFor cfg aa none), s)
  | .checking c aa =>
      let claim := claimStoreGet aa.contractId s
      if claim.nonce ≥ aa.nonce then (.refused (.badNonce aa.nonce claim.nonce), s)
      else (.storing c aa (claimFor cfg aa (some claim)), s)
  | .storing c aa claim =>
      match logUsage c aa.nonce (claimStoreSet claim s) with
      | .ok _ s' => (.served aa.contractId aa.nonce, s')
      | .error _ s' => (.aborted, s')
  | .mark contractId nonce =>
      match (claimStoreList s).find? fun c =>
          c.contractId = contractId && c.nonce.toUInt64.toNat = nonce with
      | some c => if c.claimed then (.marked true, s) else (.flipping c, s)
      | none => (.marked false, s)
  | .flipping c => (.marked true, claimStoreSet { c with claimed := true } s)
  | p => (p, s)

/-- The store and the calls, by number. -/
structure Calls where
  state : State
  procs : ℕ → Process

/-- The scheduled call takes its next step. -/
def Calls.step (cfg : Config) (c : Calls) (i : ℕ) : Option Calls :=
  let out := (c.procs i).advance cfg c.state
  some { state := out.2, procs := Function.update c.procs i out.1 }

/-! ## What the calls should guarantee -/

/-- No two calls have been served for one contract with one nonce. -/
def Calls.ServedOnce (c : Calls) : Prop :=
  ∀ i j k n, c.procs i = .served k n → c.procs j = .served k n → i = j

/-- No claim is lost and no stored nonce is smaller than before. -/
def NoncesGrow (s s' : State) : Prop :=
  ∀ k claim, s.claims.lookup k = some claim →
    ∃ claim', s'.claims.lookup k = some claim' ∧ claim.nonce ≤ claim'.nonce

/-- **The guarantee**, over a whole schedule: nonces are served once, and between any
two points of the run the stored nonces do not decrease. -/
structure Safe (cfg : Config) (c : Calls) (schedule : List ℕ) : Prop where
  once : ∀ c', Runs.run (Calls.step cfg) c schedule = some c' → c'.ServedOnce
  grow : ∀ l₁ l₂ l₃, schedule = l₁ ++ l₂ ++ l₃ → ∀ c₁ c₂,
    Runs.run (Calls.step cfg) c l₁ = some c₁ → Runs.run (Calls.step cfg) c₁ l₂ = some c₂ →
    NoncesGrow c₁.state c₂.state

/-- **The guard.**  A `Set` of `paidTier` finds a stored nonce below its own, and a
`Set` of `handleMarkClaimed` finds none above that of the claim it writes. -/
def undisturbed (c : Calls) (i : ℕ) : Bool :=
  match c.procs i with
  | .storing _ aa _ =>
      (c.state.claims.lookup aa.contractId).all fun cur => decide (cur.nonce < aa.nonce)
  | .flipping claim =>
      (c.state.claims.lookup claim.contractId).all fun cur => decide (cur.nonce ≤ claim.nonce)
  | _ => true

/-! ## A call on its own -/

/-- How a call of `paidTier` ends, by its result in the sequential model. -/
def Process.ofTier : EStateM.Result (Fault TierError) State Charge → Process × State
  | .ok charge s => (.served charge.contractId charge.nonce, s)
  | .error (.err e) s => (.refused e, s)
  | .error .panic s => (.aborted, s)

/-- One step of a call that nobody interferes with. -/
def Process.alone (cfg : Config) (out : Process × State) : Process × State :=
  out.1.advance cfg out.2

theorem alone_ofTier (cfg : Config) (r : EStateM.Result (Fault TierError) State Charge) :
    Process.alone cfg (Process.ofTier r) = Process.ofTier r := by
  rcases r with ⟨charge, t⟩ | ⟨e | _, t⟩ <;> rfl

theorem storing_advance (cfg : Config) (c : CachedContract) (aa : ArkAuth) (hf : s.Fresh aa)
    (hs : aa.Signed cr) :
    (Process.storing c aa (claimFor cfg aa (s.claims.lookup aa.contractId))).advance cfg s =
      Process.ofTier (payByClaim cr cfg c aa s) := by
  have hset : claimStoreSet (claimFor cfg aa (s.claims.lookup aa.contractId)) s =
      s.withClaim cfg aa := rfl
  rw [Process.advance, hset]
  rcases logUsage_cases c aa.nonce (s.withClaim cfg aa) with hl | hu
  · rw [payByClaim_of_fresh cfg hs hf hl, logUsage_of_loggable hl]
    rfl
  · have hpay : payByClaim cr cfg c aa s =
        .error .panic (memStorePut { c with nonce := aa.nonce } (s.withClaim cfg aa)) :=
      bind_error.mpr (.inr ⟨(), s, checkSignature_ok.mpr ⟨hs, rfl⟩, bind_error.mpr
        (.inr ⟨(), _, storeClaim_of_fresh cfg hf, bind_error.mpr (.inl hu)⟩)⟩)
    rw [hpay, hu]
    rfl

/-- **Undisturbed, a call of `paidTier` does what the sequential model says.** -/
theorem pay_alone (c : CachedContract) (aa : ArkAuth) (hs : aa.Signed cr) (s : State) :
    (Process.alone cfg)^[3] (.pay c aa, s) = Process.ofTier (payByClaim cr cfg c aa s) := by
  simp only [Function.iterate_succ_apply, Function.iterate_zero_apply]
  cases hl : s.claims.lookup aa.contractId with
  | none =>
    have hf : s.Fresh aa := by
      intro claim hc
      rw [hl] at hc
      cases hc
    have hstore := storing_advance cfg c aa hf hs
    have hhas : Process.alone cfg (.pay c aa, s) =
        (.storing c aa (claimFor cfg aa (s.claims.lookup aa.contractId)), s) := by
      rw [Process.alone, Process.advance, hl]
      rfl
    rw [hhas]
    -- the third operation finds the call ended
    exact (congrArg _ hstore).trans (alone_ofTier cfg _)
  | some claim =>
    have hhas : Process.alone cfg (.pay c aa, s) = (.checking c aa, s) := by
      rw [Process.alone, Process.advance, hl]
      rfl
    have hget : claimStoreGet aa.contractId s = claim := by rw [claimStoreGet, hl, Option.getD_some]
    rw [hhas]
    rcases s.fresh_or_stale aa with hf | ⟨claim', hl', hn⟩
    · have hcheck : Process.alone cfg (.checking c aa, s) =
          (.storing c aa (claimFor cfg aa (s.claims.lookup aa.contractId)), s) := by
        rw [Process.alone, Process.advance, hget, hl]
        exact if_neg (Int64.not_le.mpr (hf claim hl))
      rw [hcheck]
      exact storing_advance cfg c aa hf hs
    · cases hl.symm.trans hl'
      have hpay : payByClaim cr cfg c aa s =
          .error (.err (.badNonce aa.nonce claim.nonce)) s :=
        bind_error.mpr (.inr ⟨(), s, checkSignature_ok.mpr ⟨hs, rfl⟩,
          bind_error.mpr (.inl (storeClaim_of_stale cfg hl hn))⟩)
      have hcheck : Process.alone cfg (.checking c aa, s) =
          Process.ofTier (payByClaim cr cfg c aa s) := by
        rw [hpay, Process.alone, Process.advance, hget]
        exact if_pos hn
      rw [hcheck]
      exact alone_ofTier cfg _

/-- **Undisturbed, a call of `handleMarkClaimed` does what the sequential model says.** -/
theorem mark_alone (contractId nonce : ℕ) (s : State) :
    ((Process.alone cfg)^[2] (.mark contractId nonce, s)).2 =
      handleMarkClaimed contractId nonce s := by
  simp only [Function.iterate_succ_apply, Function.iterate_zero_apply]
  unfold handleMarkClaimed
  rw [Process.alone.eq_1 cfg (.mark contractId nonce, s), Process.advance]
  cases (claimStoreList s).find? fun c =>
      c.contractId = contractId && c.nonce.toUInt64.toNat = nonce with
  | none => rfl
  | some c =>
    cases hc : c.claimed with
    | true => simp only [hc]; rfl
    | false => simp only [hc]; rfl

/-! ## What one operation can do -/

/-- The call has come to its end. -/
def Process.hasEnded : Process → Bool
  | .served _ _ => true
  | .refused _ => true
  | .aborted => true
  | .marked _ => true
  | _ => false

/-- Everything one operation of a call can do; the last two arguments are the call and
the store afterwards. -/
inductive Advance (s : State) : Process → Process → State → Prop
  | found (c : CachedContract) (aa : ArkAuth) (cur : Claim)
      (hl : s.claims.lookup aa.contractId = some cur) :
      Advance s (.pay c aa) (.checking c aa) s
  | absent (c : CachedContract) (aa : ArkAuth) (claim : Claim)
      (hl : s.claims.lookup aa.contractId = none)
      (hid : claim.contractId = aa.contractId) (hn : claim.nonce = aa.nonce) :
      Advance s (.pay c aa) (.storing c aa claim) s
  | stale (c : CachedContract) (aa : ArkAuth) (e : TierError) :
      Advance s (.checking c aa) (.refused e) s
  | fresh (c : CachedContract) (aa : ArkAuth) (claim : Claim)
      (hlt : (claimStoreGet aa.contractId s).nonce < aa.nonce)
      (hid : claim.contractId = (claimStoreGet aa.contractId s).contractId)
      (hn : claim.nonce = aa.nonce) :
      Advance s (.checking c aa) (.storing c aa claim) s
  | stored (c : CachedContract) (aa : ArkAuth) (claim : Claim) (p : Process) (t : State)
      (ht : t.claims = (claimStoreSet claim s).claims)
      (hp : p = .served aa.contractId aa.nonce ∨ ¬c.Loggable ∧ p = .aborted) :
      Advance s (.storing c aa claim) p t
  | listed (contractId nonce : ℕ) (claim : Claim) (key : ℕ)
      (hl : s.claims.lookup key = some claim) :
      Advance s (.mark contractId nonce) (.flipping claim) s
  | unlisted (contractId nonce : ℕ) (updated : Bool) :
      Advance s (.mark contractId nonce) (.marked updated) s
  | flipped (claim : Claim) :
      Advance s (.flipping claim) (.marked true) (claimStoreSet { claim with claimed := true } s)
  | ended (p : Process) (hp : p.hasEnded = true) : Advance s p p s

/-- **One operation, inverted.** -/
theorem advance_outcome (cfg : Config) (s : State) (p : Process) :
    Advance s p (p.advance cfg s).1 (p.advance cfg s).2 := by
  cases p with
  | pay c aa =>
    rw [Process.advance]
    cases hl : s.claims.lookup aa.contractId with
    | none => exact .absent c aa _ hl rfl rfl
    | some cur => exact .found c aa cur hl
  | checking c aa =>
    rw [Process.advance]
    split
    · exact .stale c aa _
    · rename_i hn
      exact .fresh c aa _ (Int64.not_le.mp hn) rfl rfl
  | storing c aa claim =>
    rw [Process.advance]
    rcases logUsage_cases c aa.nonce (claimStoreSet claim s) with hl | hu
    · rw [logUsage_of_loggable hl]
      exact .stored c aa claim _ _ rfl (.inl rfl)
    · rw [hu]
      refine .stored c aa claim _ _ rfl (.inr ⟨?_, rfl⟩)
      intro hl
      rw [logUsage_of_loggable hl] at hu
      cases hu
  | mark contractId nonce =>
    rw [Process.advance]
    split
    · rename_i claim hf
      obtain ⟨key, hl⟩ := mem_claimStoreList.mp (List.mem_of_find?_eq_some hf)
      split
      · exact .unlisted contractId nonce true
      · exact .listed contractId nonce claim key hl
    · exact .unlisted contractId nonce false
  | flipping claim => exact .flipped claim
  | served k n => exact .ended _ rfl
  | refused e => exact .ended _ rfl
  | aborted => exact .ended _ rfl
  | marked b => exact .ended _ rfl

/-! ## Undisturbed runs -/

theorem NoncesGrow.of_eq (h : s'.claims = s.claims) : NoncesGrow s s' := by
  intro k claim hl
  exact ⟨claim, by rw [h]; exact hl, Int64.le_refl _⟩

theorem NoncesGrow.trans {t : State} (h : NoncesGrow s t) (h' : NoncesGrow t s') :
    NoncesGrow s s' := by
  intro k claim hl
  obtain ⟨c, hc, hle⟩ := h k claim hl
  obtain ⟨c', hc', hle'⟩ := h' k c hc
  exact ⟨c', hc', Int64.le_trans hle hle'⟩

theorem NoncesGrow.set {claim : Claim}
    (h : ∀ cur, s.claims.lookup claim.contractId = some cur → cur.nonce ≤ claim.nonce) :
    NoncesGrow s (claimStoreSet claim s) := by
  intro k cur hl
  rw [claimStoreSet_lookup]
  by_cases hk : k = claim.contractId
  · exact ⟨claim, if_pos hk, h cur (hk ▸ hl)⟩
  · exact ⟨cur, (if_neg hk).trans hl, Int64.le_refl _⟩

/-- What a call that is under way knows of the store `s`, and of the one it all began
with. -/
def Process.Ok (s₀ s : State) : Process → Prop
  | .checking _ aa => ∃ cur, s.claims.lookup aa.contractId = some cur
  | .storing _ aa claim =>
      claim.contractId = aa.contractId ∧ claim.nonce = aa.nonce ∧
        ∀ old, s₀.claims.lookup aa.contractId = some old → old.nonce < aa.nonce
  | .served k n => ∃ cur, s.claims.lookup k = some cur ∧ n ≤ cur.nonce
  | .flipping claim =>
      ∃ cur, s.claims.lookup claim.contractId = some cur ∧ claim.nonce ≤ cur.nonce
  | _ => True

theorem Process.Ok.mono {s₀ : State} {p : Process} (h : p.Ok s₀ s) (hg : NoncesGrow s s') :
    p.Ok s₀ s' := by
  cases p with
  | checking c aa =>
    obtain ⟨cur, hl⟩ := h
    obtain ⟨cur', hl', -⟩ := hg _ cur hl
    exact ⟨cur', hl'⟩
  | served k n =>
    obtain ⟨cur, hl, hle⟩ := h
    obtain ⟨cur', hl', hle'⟩ := hg _ cur hl
    exact ⟨cur', hl', Int64.le_trans hle hle'⟩
  | flipping claim =>
    obtain ⟨cur, hl, hle⟩ := h
    obtain ⟨cur', hl', hle'⟩ := hg _ cur hl
    exact ⟨cur', hl', Int64.le_trans hle hle'⟩
  | storing c aa claim => exact h
  | _ => trivial

/-- The invariant of an undisturbed run from the store `s₀`. -/
structure Calls.Inv (s₀ : State) (c : Calls) : Prop where
  keyed : c.state.Keyed
  grown : NoncesGrow s₀ c.state
  ok : ∀ i, (c.procs i).Ok s₀ c.state
  once : c.ServedOnce

theorem Calls.Inv.update {s₀ t : State} {c : Calls} {i : ℕ} {p : Process} (h : c.Inv s₀)
    (hk : t.Keyed) (hg : NoncesGrow c.state t) (hok : p.Ok s₀ t)
    (hnew : ∀ k n, p = .served k n → ∀ j, j ≠ i → c.procs j ≠ .served k n) :
    Calls.Inv s₀ { state := t, procs := Function.update c.procs i p } := by
  refine ⟨hk, h.grown.trans hg, ?_, ?_⟩
  · intro j
    by_cases hj : j = i
    · subst hj
      simpa using hok
    · simpa [hj] using (h.ok j).mono hg
  · intro j j' k n hs hs'
    by_cases hj : j = i <;> by_cases hj' : j' = i
    · rw [hj, hj']
    · rw [hj] at hs
      simp only [Function.update_self] at hs
      simp only [Function.update_of_ne hj'] at hs'
      exact absurd hs' (hnew k n hs j' hj')
    · rw [hj'] at hs'
      simp only [Function.update_self] at hs'
      simp only [Function.update_of_ne hj] at hs
      exact absurd hs (hnew k n hs' j hj)
    · simp only [Function.update_of_ne hj] at hs
      simp only [Function.update_of_ne hj'] at hs'
      exact h.once j j' k n hs hs'

/-- A step that leaves the claims alone and serves nobody. -/
theorem Calls.Inv.idle {s₀ : State} {c : Calls} (h : c.Inv s₀) (i : ℕ) {p : Process}
    (hok : p.Ok s₀ c.state) (hp : ∀ k n, p ≠ .served k n) :
    Calls.Inv s₀ { state := c.state, procs := Function.update c.procs i p } :=
  h.update h.keyed (.of_eq rfl) hok fun k n hs => absurd hs (hp k n)

theorem undisturbed_storing {c : Calls} {i : ℕ} {k : CachedContract} {aa : ArkAuth} {claim : Claim}
    (hp : c.procs i = .storing k aa claim) : undisturbed c i = true ↔
      ∀ cur, c.state.claims.lookup aa.contractId = some cur → cur.nonce < aa.nonce := by
  unfold undisturbed
  rw [hp]
  cases hl : c.state.claims.lookup aa.contractId <;> simp [hl]

theorem undisturbed_flipping {c : Calls} {i : ℕ} {claim : Claim}
    (hp : c.procs i = .flipping claim) : undisturbed c i = true ↔
      ∀ cur, c.state.claims.lookup claim.contractId = some cur → cur.nonce ≤ claim.nonce := by
  unfold undisturbed
  rw [hp]
  cases hl : c.state.claims.lookup claim.contractId <;> simp [hl]

/-- **One undisturbed step.** -/
theorem step_inv {s₀ : State} {c c' : Calls} {i : ℕ} (h : c.Inv s₀)
    (hu : undisturbed c i = true) (hs : c.step cfg i = some c') :
    c'.Inv s₀ ∧ NoncesGrow c.state c'.state := by
  have hok := h.ok i
  have ho := advance_outcome cfg c.state (c.procs i)
  cases hs
  generalize hp : c.procs i = p at ho hok
  generalize (p.advance cfg c.state).1 = p', (p.advance cfg c.state).2 = t at ho
  cases ho with
  | found k aa cur hl => exact ⟨h.idle i ⟨cur, hl⟩ nofun, .of_eq rfl⟩
  | absent k aa claim hl hid hn =>
    refine ⟨h.idle i ⟨hid, hn, ?_⟩ nofun, .of_eq rfl⟩
    intro old hold
    obtain ⟨cur, hcur, -⟩ := h.grown _ old hold
    rw [hl] at hcur
    cases hcur
  | stale k aa e => exact ⟨h.idle i trivial nofun, .of_eq rfl⟩
  | fresh k aa claim hlt hid hn =>
    obtain ⟨cur, hl⟩ := hok
    rw [claimStoreGet, hl, Option.getD_some] at hlt hid
    refine ⟨h.idle i ⟨hid.trans (h.keyed _ cur hl), hn, ?_⟩ nofun, .of_eq rfl⟩
    intro old hold
    obtain ⟨cur', hcur, hle⟩ := h.grown _ old hold
    cases hl.symm.trans hcur
    exact Int64.lt_of_le_of_lt hle hlt
  | stored k aa claim p t ht hend =>
    obtain ⟨hid, hn, hold⟩ := hok
    have hlt := (undisturbed_storing hp).mp hu
    have hgrow : NoncesGrow c.state t := by
      refine NoncesGrow.trans (.set ?_) (.of_eq ht)
      intro cur hl
      rw [hid] at hl
      rw [hn]
      exact Int64.le_of_lt (hlt cur hl)
    refine ⟨h.update ((h.keyed.set claim).of_eq ht) hgrow ?_ ?_, hgrow⟩
    · rcases hend with rfl | ⟨-, rfl⟩
      · refine ⟨claim, ?_, by rw [hn]; exact Int64.le_refl _⟩
        rw [ht, claimStoreSet_lookup, if_pos hid.symm]
      · trivial
    · -- a call that was served with this nonce has left it in the store
      rintro k n rfl j - hj
      rcases hend with he | ⟨-, he⟩
      · cases he
        have hjok := h.ok j
        rw [hj] at hjok
        obtain ⟨cur, hl, hle⟩ := hjok
        exact absurd (hlt cur hl) (Int64.not_lt.mpr hle)
      · cases he
  | listed id nonce claim key hl =>
    refine ⟨h.idle i ⟨claim, ?_, Int64.le_refl _⟩ nofun, .of_eq rfl⟩
    rw [h.keyed key claim hl]
    exact hl
  | unlisted id nonce b => exact ⟨h.idle i trivial nofun, .of_eq rfl⟩
  | flipped claim =>
    have hgrow : NoncesGrow c.state (claimStoreSet { claim with claimed := true } c.state) :=
      .set ((undisturbed_flipping hp).mp hu)
    exact ⟨h.update (h.keyed.set _) hgrow trivial nofun, hgrow⟩
  | ended p _ =>
    refine ⟨h.update h.keyed (.of_eq rfl) hok ?_, .of_eq rfl⟩
    rintro k n hk j hj hs
    exact hj (h.once j i k n hs (hp.trans hk))

theorem inv_start {s : State} (hk : s.Keyed) {procs : ℕ → Process}
    (hc : ∀ i, (procs i).isCall = true) : Calls.Inv s { state := s, procs := procs } := by
  refine ⟨hk, .of_eq rfl, ?_, ?_⟩
  · intro i
    have hi := hc i
    cases hp : procs i with
    | pay c aa =>
      simp only [hp]
      trivial
    | mark contractId nonce =>
      simp only [hp]
      trivial
    | _ =>
      rw [hp] at hi
      cases hi
  · intro i j k n hs
    have hi := hc i
    replace hs : procs i = .served k n := hs
    rw [hs] at hi
    cases hi

/-- **Undisturbed runs are safe.** -/
theorem Calls.Inv.safe {s₀ : State} {c : Calls} (h : c.Inv s₀) {schedule : List ℕ}
    (hg : Runs.Guarded (Calls.step cfg) (fun c i => undisturbed c i = true) c schedule) :
    Safe cfg c schedule := by
  refine ⟨?_, ?_⟩
  · intro c' hrun
    exact (Runs.run_induct_of_guarded (fun _ _ _ h hu hs => (step_inv h hu hs).1) h hg hrun).once
  · rintro l₁ l₂ l₃ rfl c₁ c₂ h₁ h₂
    obtain ⟨hg₁, hg₂⟩ := Runs.guarded_append.mp (Runs.guarded_append.mp hg).1
    have hi : c₁.Inv s₀ :=
      Runs.run_induct_of_guarded (fun _ _ _ h hu hs => (step_inv h hu hs).1) h hg₁ h₁
    have hstep : ∀ c i c', (c.Inv s₀ ∧ NoncesGrow c₁.state c.state) → undisturbed c i = true →
        c.step cfg i = some c' → c'.Inv s₀ ∧ NoncesGrow c₁.state c'.state := by
      rintro c i c' ⟨hi, hgrow⟩ hu hs
      obtain ⟨hi', hgrow'⟩ := step_inv hi hu hs
      exact ⟨hi', hgrow.trans hgrow'⟩
    exact (Runs.run_induct_of_guarded hstep ⟨hi, .of_eq rfl⟩ (hg₂ c₁ h₁) h₂).2

/-! ## Disturbed runs -/

/-- The usage of the call can be logged. -/
def Process.Loggable : Process → Prop
  | .pay c _ => c.Loggable
  | .checking c _ => c.Loggable
  | .storing c _ _ => c.Loggable
  | _ => True

/-- Every stored nonce was there at the beginning or has been served. -/
structure Calls.Traced (s₀ : State) (c : Calls) : Prop extends Calls.Inv s₀ c where
  loggable : ∀ i, (c.procs i).Loggable
  source : ∀ k cur, c.state.claims.lookup k = some cur →
    (∃ old, s₀.claims.lookup k = some old ∧ old.nonce = cur.nonce) ∨
      ∃ j, c.procs j = .served k cur.nonce

theorem step_outcome {c c' : Calls} {i : ℕ} (hs : c.step cfg i = some c') :
    Advance c.state (c.procs i) (c'.procs i) c'.state ∧ ∀ j, j ≠ i → c'.procs j = c.procs j := by
  cases hs
  refine ⟨?_, fun j hj => Function.update_of_ne hj _ _⟩
  simp only [Function.update_self]
  exact advance_outcome cfg c.state (c.procs i)

/-- Every call can always be scheduled. -/
theorem run_total (cfg : Config) (c : Calls) (schedule : List ℕ) :
    ∃ c', Runs.run (Calls.step cfg) c schedule = some c' := by
  induction schedule generalizing c with
  | nil => exact ⟨c, rfl⟩
  | cons i schedule ih =>
    obtain ⟨c', hc'⟩ := ih _
    exact ⟨c', Runs.run_cons.mpr ⟨_, rfl, hc'⟩⟩

theorem Process.Loggable.advance {p p' : Process} {t : State} (h : p.Loggable)
    (ha : Advance s p p' t) : p'.Loggable := by
  cases ha with
  | stored k aa claim p t _ hend => rcases hend with rfl | ⟨-, rfl⟩ <;> trivial
  | found | absent | fresh | ended => exact h
  | _ => trivial

theorem step_served {c c' : Calls} {i j : ℕ} {n : Int64} (hs : c.step cfg i = some c')
    (hj : c.procs j = .served k n) : c'.procs j = .served k n := by
  cases hs
  by_cases hij : j = i
  · subst hij
    simp only [Function.update_self, hj]
    rfl
  · simpa only [Function.update_of_ne hij] using hj

theorem run_served {c c' : Calls} {schedule : List ℕ} {j : ℕ} {n : Int64}
    (hrun : Runs.run (Calls.step cfg) c schedule = some c') (hj : c.procs j = .served k n) :
    c'.procs j = .served k n :=
  Runs.run_induct (P := fun c => c.procs j = .served k n) (fun _ _ _ h hs => step_served hs h)
    hj hrun

/-- Nonces that were served twice stay so. -/
theorem servedOnce_of_run {c c' : Calls} {schedule : List ℕ}
    (hrun : Runs.run (Calls.step cfg) c schedule = some c') (h : c'.ServedOnce) :
    c.ServedOnce :=
  fun i j k n hi hj => h i j k n (run_served hrun hi) (run_served hrun hj)

theorem step_traced {s₀ : State} {c c' : Calls} {i : ℕ} (h : c.Traced s₀)
    (hu : undisturbed c i = true) (hs : c.step cfg i = some c') : c'.Traced s₀ := by
  have hinv := (step_inv h.toInv hu hs).1
  have hkept : ∀ k n, (∃ j, c.procs j = .served k n) → ∃ j, c'.procs j = .served k n := by
    rintro k n ⟨j, hj⟩
    exact ⟨j, step_served hs hj⟩
  -- a nonce that was stored before the step
  have hold : ∀ k cur, c.state.claims.lookup k = some cur →
      (∃ old, s₀.claims.lookup k = some old ∧ old.nonce = cur.nonce) ∨
        ∃ j, c'.procs j = .served k cur.nonce :=
    fun k cur hl => (h.source k cur hl).imp_right (hkept k cur.nonce)
  have hok := h.ok i
  have hlog := h.loggable i
  obtain ⟨ho, hother⟩ := step_outcome hs
  refine ⟨hinv, ?_, ?_⟩
  · intro j
    by_cases hj : j = i
    · rw [hj]
      exact hlog.advance ho
    · rw [hother j hj]
      exact h.loggable j
  · generalize hi' : c'.procs i = p' at ho
    generalize c'.state = t at ho
    generalize hp : c.procs i = p at ho hok hlog
    cases ho with
    | stored k aa claim p t hclaims hend =>
      intro k' cur hl
      rw [hclaims, claimStoreSet_lookup] at hl
      split at hl
      · rename_i hk
        cases hl
        obtain ⟨hid, hn, -⟩ := hok
        rcases hend with rfl | ⟨hlog', -⟩
        · refine .inr ⟨i, ?_⟩
          rw [hi', hk, hid, hn]
        · exact absurd hlog hlog'
      · exact hold k' cur hl
    | flipped claim =>
      intro k' cur hl
      rw [claimStoreSet_lookup] at hl
      split at hl
      · rename_i hk
        cases hl
        obtain ⟨cur, hcur, hle⟩ := hok
        -- the claim is written back with the nonce it has
        have hn : claim.nonce = cur.nonce :=
          Int64.le_antisymm hle ((undisturbed_flipping hp).mp hu cur hcur)
        rw [hk, show ({ claim with claimed := true } : Claim).nonce = cur.nonce from hn]
        exact hold _ cur hcur
      · exact hold k' cur hl
    | _ => exact hold

/-- **A disturbed `Set` does harm.** -/
theorem undisturbed_of_safe {s₀ : State} {c c' : Calls} {i : ℕ} (h : c.Traced s₀)
    (hs : c.step cfg i = some c') (hgrow : NoncesGrow c.state c'.state) (honce : c'.ServedOnce) :
    undisturbed c i = true := by
  have hok := h.ok i
  have hlog := h.loggable i
  obtain ⟨ho, -⟩ := step_outcome hs
  generalize hi' : c'.procs i = p' at ho
  generalize c'.state = t at ho hgrow
  generalize hp : c.procs i = p at ho hok hlog
  cases ho with
  | stored k aa claim p t hclaims hend =>
    obtain ⟨hid, hn, hinit⟩ := hok
    rw [undisturbed_storing hp]
    intro cur hl
    obtain ⟨cur', hl', hle⟩ := hgrow _ cur hl
    rw [hclaims, claimStoreSet_lookup, if_pos hid.symm] at hl'
    cases hl'
    rw [hn] at hle
    by_contra hlt
    -- the nonce is stored already, by another call that was served with it
    have heq : cur.nonce = aa.nonce := Int64.le_antisymm hle (Int64.not_lt.mp hlt)
    rcases h.source _ cur hl with ⟨old, hold, hon⟩ | ⟨j, hj⟩
    · have := hinit old hold
      rw [hon, heq] at this
      exact Int64.lt_irrefl this
    · rcases hend with rfl | ⟨hlog', -⟩
      · have hj' := step_served hs hj
        rw [heq] at hj'
        obtain rfl := honce i j _ _ hi' hj'
        cases hp.symm.trans hj
      · exact hlog' hlog
  | flipped claim =>
    rw [undisturbed_flipping hp]
    intro cur hl
    obtain ⟨cur', hl', hle⟩ := hgrow _ cur hl
    rw [claimStoreSet_lookup, if_pos rfl] at hl'
    cases hl'
    exact hle
  | ended p hend =>
    unfold undisturbed
    rw [hp]
    cases p' with
    | storing => cases hend
    | flipping => cases hend
    | _ => rfl
  | _ =>
    unfold undisturbed
    rw [hp]

theorem Safe.tail {c c' : Calls} {i : ℕ} {schedule : List ℕ} (h : Safe cfg c (i :: schedule))
    (hs : c.step cfg i = some c') : Safe cfg c' schedule := by
  refine ⟨fun d hrun => h.once d (Runs.run_cons.mpr ⟨c', hs, hrun⟩), ?_⟩
  rintro l₁ l₂ l₃ rfl c₁ c₂ h₁ h₂
  exact h.grow (i :: l₁) l₂ l₃ rfl c₁ c₂ (Runs.run_cons.mpr ⟨c', hs, h₁⟩) h₂

/-- **Safe runs are undisturbed.** -/
theorem Calls.Traced.undisturbed {s₀ : State} {c : Calls} (h : c.Traced s₀) {schedule : List ℕ}
    (hsafe : Safe cfg c schedule) :
    Runs.Guarded (Calls.step cfg) (fun c i => undisturbed c i = true) c schedule := by
  induction schedule generalizing c with
  | nil => trivial
  | cons i schedule ih =>
    have hstep : ∀ c', c.step cfg i = some c' → Sentinel.undisturbed c i = true := by
      intro c' hs
      refine undisturbed_of_safe h hs (hsafe.grow [] [i] schedule rfl c c' rfl ?_) ?_
      · exact Runs.run_cons.mpr ⟨c', hs, rfl⟩
      · obtain ⟨d, hd⟩ := run_total cfg c' schedule
        exact servedOnce_of_run hd ((hsafe.tail hs).once d hd)
    refine ⟨hstep _ rfl, ?_⟩
    intro c' hs
    exact ih (step_traced h (hstep c' hs) hs) (hsafe.tail hs)

/-- **Concurrent calls.**  For every store, every assignment of calls to numbers and
every schedule: if no `Set` is disturbed, no two calls are served for one contract
with one nonce and no stored nonce decreases; and, the usage of the contracts being
loggable, only then. -/
theorem calls_safe_iff_undisturbed (cfg : Config) (hk : s.Keyed) {procs : ℕ → Process}
    (hc : ∀ i, (procs i).isCall = true) (schedule : List ℕ) :
    (Runs.Guarded (Calls.step cfg) (fun c i => undisturbed c i = true) ⟨s, procs⟩ schedule →
      Safe cfg ⟨s, procs⟩ schedule) ∧
    ((∀ i, (procs i).Loggable) →
      (Safe cfg ⟨s, procs⟩ schedule ↔
        Runs.Guarded (Calls.step cfg) (fun c i => undisturbed c i = true) ⟨s, procs⟩
          schedule)) := by
  have hinv : Calls.Inv s ⟨s, procs⟩ := inv_start hk hc
  refine ⟨hinv.safe, ?_⟩
  intro hlog
  have htraced : Calls.Traced s ⟨s, procs⟩ := ⟨hinv, hlog, fun k cur hl => .inl ⟨cur, hl, rfl⟩⟩
  exact ⟨htraced.undisturbed, hinv.safe⟩

namespace Sample

/-- Two calls for the client's query, one with a greater nonce, and calls that mark the
first claim. -/
def calls (i : ℕ) : Process :=
  if i ≤ 1 then .pay answer.contract clientAuth
  else if i = 2 then .pay answer.contract strangerAuth
  else .mark 2 5

theorem calls_isCall (i : ℕ) : (calls i).isCall = true := by
  unfold calls
  split
  · rfl
  · split <;> rfl

end Sample

/-- The first query is paid and marked, the second query on its heels is refused. -/
theorem calls_in_turn_safe :
    Safe Sample.config ⟨{}, Sample.calls⟩ [0, 0, 3, 3, 1, 1, 2, 2, 2] ∧
      (Runs.run (Calls.step Sample.config) ⟨{}, Sample.calls⟩ [0, 0, 3, 3, 1, 1, 2, 2, 2]).map
        (fun c => [c.procs 0, c.procs 1, c.procs 2, c.procs 3]) =
      some [.served 2 5, .refused (.badNonce 5 5), .served 2 7, .marked true] := by
  have hkeyed : ({} : State).Keyed := by
    intro k claim hl
    cases hl
  refine ⟨(calls_safe_iff_undisturbed Sample.config hkeyed Sample.calls_isCall _).1 ?_, ?_⟩
  · decide +kernel
  · decide +kernel

/-- **A nonce is served to both.**  Two calls with one nonce look before either of them
writes, and both are served; and a call that marks a claim read before a newer one
was stored puts the old nonce back. -/
theorem nonce_served_to_both :
    ¬Safe Sample.config ⟨{}, Sample.calls⟩ [0, 1, 0, 1] ∧
      ¬Safe Sample.config ⟨{}, Sample.calls⟩ [0, 0, 3, 2, 2, 2, 3] := by
  refine ⟨?_, ?_⟩
  · intro h
    have hrun : (Runs.run (Calls.step Sample.config) ⟨{}, Sample.calls⟩ [0, 1, 0, 1]).map
        (fun c => (c.procs 0, c.procs 1)) = some (.served 2 5, .served 2 5) := by decide +kernel
    obtain ⟨c, hc, hp⟩ := Option.map_eq_some_iff.mp hrun
    obtain ⟨h₀, h₁⟩ := Prod.mk.inj hp
    exact absurd (h.once c hc 0 1 2 5 h₀ h₁) (by decide)
  · intro h
    have hrun : ((Runs.run (Calls.step Sample.config) ⟨{}, Sample.calls⟩ [0, 0, 3, 2, 2, 2]).bind
        fun c => (c.step Sample.config 3).map fun c' =>
          ((c.state.claims.lookup 2).map Claim.nonce, (c'.state.claims.lookup 2).map Claim.nonce)) =
        some (some 7, some 5) := by decide +kernel
    obtain ⟨c, hc, hstep⟩ := Option.bind_eq_some_iff.mp hrun
    obtain ⟨c', hc', hn⟩ := Option.map_eq_some_iff.mp hstep
    obtain ⟨h₇, h₅⟩ := Prod.mk.inj hn
    obtain ⟨cur, hl, hcur⟩ := Option.map_eq_some_iff.mp h₇
    obtain ⟨cur', hl', hle⟩ := h.grow [0, 0, 3, 2, 2, 2] [3] [] rfl c c' hc
      (Runs.run_cons.mpr ⟨c', hc', rfl⟩) 2 cur hl
    rw [hl', Option.map_some, Option.some.injEq] at h₅
    rw [hcur, h₅] at hle
    exact absurd hle (by decide)

end Arkeo.Sentinel
