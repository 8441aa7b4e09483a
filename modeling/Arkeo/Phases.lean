import Arkeo.History

/-! # The phases of a contract

A contract is meant to go through three phases, each with a predicate of its own:
open, in its settlement period, settled.  `LifeCycle` says that the predicates fit
together: at every height from the opening on exactly one of them holds, no height
goes back to an earlier phase, and a contract that was finally settled counts as
settled from then on.

They do so for a contract that is not settled yet.  Once the final settlement is
recorded, the contract is neither open nor in its settlement period, and it is
settled only from the end of the period agreed at the opening: in between it is in
no phase (`Wf.onePhase_iff`).
-/
namespace Arkeo
open Exec

namespace Contract

def isSettlementPeriod (c : Contract) (height : Int64) : Bool :=
  !c.isOpen height && !(0 < c.settlementHeight) &&
    (c.expiration < height && height < c.settlementPeriodEnd)

end Contract

inductive Phase where
  | opened
  | settlementPeriod
  | settled
  deriving DecidableEq, Repr

namespace Phase

/-- The place of a phase in the life of a contract. -/
def rank : Phase → ℕ
  | opened => 0
  | settlementPeriod => 1
  | settled => 2

/-- The predicate of a phase. -/
def holds (c : Contract) (height : Int64) : Phase → Bool
  | opened => c.isOpen height
  | settlementPeriod => c.isSettlementPeriod height
  | settled => c.isSettled height

end Phase

namespace Contract

/-- Exactly one of the three predicates holds. -/
def OnePhase (c : Contract) (height : Int64) : Prop :=
  ∃ p, p.holds c height = true ∧ ∀ p' : Phase, p'.holds c height = true → p' = p

structure LifeCycle (c : Contract) : Prop where
  one : ∀ t : Int64, c.height.toInt ≤ t.toInt → c.OnePhase t
  forward : ∀ t t' : Int64, t.toInt ≤ t'.toInt → ∀ p p' : Phase, p.holds c t = true →
    p'.holds c t' = true → p.rank ≤ p'.rank
  settled_after : c.settlementHeight ≠ 0 → ∀ t : Int64, c.settlementHeight.toInt < t.toInt →
    c.isSettled t = true

/-- The first height at which a settled contract is no longer open, or an earlier one. -/
def closing (c : Contract) : ℤ := min c.expiration.toInt c.settlementHeight.toInt + 1

variable {cr : Crypto} {c : Contract} {t : Int64}

theorem settlementHeight_eq_zero : c.settlementHeight = 0 ↔ c.settlementHeight.toInt = 0 :=
  Int64.toInt_inj.symm

theorem Wf.opened_iff (h : c.Wf cr) : Phase.opened.holds c t = true ↔
    t.toInt ≤ c.expiration.toInt ∧
      (c.settlementHeight.toInt = 0 ∨ t.toInt ≤ c.settlementHeight.toInt) := by
  rw [h.expiration_toInt]
  exact h.isOpen_iff

theorem Wf.settled_iff (h : c.Wf cr) : Phase.settled.holds c t = true ↔
    ¬(t.toInt ≤ c.expiration.toInt ∧
      (c.settlementHeight.toInt = 0 ∨ t.toInt ≤ c.settlementHeight.toInt)) ∧
      c.settlementPeriodEnd.toInt ≤ t.toInt := by
  rw [← h.opened_iff]
  unfold Phase.holds isSettled
  simp only [Bool.and_eq_true, Bool.not_eq_true', Bool.not_eq_true, decide_eq_true_eq,
    Int64.le_iff_toInt_le]

theorem Wf.settlementPeriod_iff (h : c.Wf cr) : Phase.settlementPeriod.holds c t = true ↔
    c.settlementHeight.toInt = 0 ∧ c.expiration.toInt < t.toInt ∧
      t.toInt < c.settlementPeriodEnd.toInt := by
  have hopen := h.opened_iff (t := t)
  have hnonneg := h.settlementHeight_nonneg
  have hzero : (0 : Int64).toInt = 0 := rfl
  unfold Phase.holds at hopen ⊢
  unfold isSettlementPeriod
  simp only [Bool.and_eq_true, Bool.not_eq_true', decide_eq_true_eq, Int64.lt_iff_toInt_lt,
    hzero, ← Bool.not_eq_true, hopen]
  omega

/-- **Where the phases leave a gap**: at the heights from the closing of a settled
contract up to the end of its settlement period. -/
theorem Wf.onePhase_iff (h : c.Wf cr) : c.OnePhase t ↔
    c.settlementHeight = 0 ∨ t.toInt < c.closing ∨ c.settlementPeriodEnd.toInt ≤ t.toInt := by
  have hle := h.expiration_le_settlementPeriodEnd
  have hnonneg := h.settlementHeight_nonneg
  have hopen := h.opened_iff (t := t)
  have hperiod := h.settlementPeriod_iff (t := t)
  have hsettled := h.settled_iff (t := t)
  rw [settlementHeight_eq_zero]
  unfold closing
  constructor
  · rintro ⟨p, hp, -⟩
    cases p with
    | opened =>
      have := hopen.mp hp
      omega
    | settlementPeriod =>
      have := hperiod.mp hp
      omega
    | settled =>
      have := hsettled.mp hp
      omega
  · intro hgap
    -- the three conditions exclude each other
    have hunique : ∀ p p' : Phase, p.holds c t = true → p'.holds c t = true → p' = p := by
      intro p p' hp hp'
      cases p <;> cases p' <;> first
        | rfl
        | simp only [hopen, hperiod, hsettled] at hp hp'
          omega
    by_cases ho : Phase.opened.holds c t = true
    · exact ⟨_, ho, fun p hp => hunique _ p ho hp⟩
    by_cases hs : Phase.settled.holds c t = true
    · exact ⟨_, hs, fun p hp => hunique _ p hs hp⟩
    have hp : Phase.settlementPeriod.holds c t = true := by
      rw [hopen] at ho
      rw [hsettled] at hs
      rw [hperiod]
      omega
    exact ⟨_, hp, fun p hp' => hunique _ p hp hp'⟩

/-- No later height is in an earlier phase, whatever was settled in between. -/
theorem Wf.forward (h : c.Wf cr) {lo hi : ℤ} {c' : Contract} (h' : c'.Wf cr)
    (hl : c.Later lo hi c') {t t' : Int64} (ht : t.toInt ≤ t'.toInt) {p p' : Phase}
    (hp : p.holds c t = true) (hp' : p'.holds c' t' = true) : p.rank ≤ p'.rank := by
  have he := congrArg Int64.toInt hl.expiration_eq
  have hf := congrArg Int64.toInt hl.settlementPeriodEnd_eq
  have hle := h.expiration_le_settlementPeriodEnd
  have hsettled : c'.settlementHeight.toInt = c.settlementHeight.toInt ∨
      c.settlementHeight.toInt = 0 := by
    rcases hl.settled with hs | ⟨hs, -⟩
    · exact .inl (congrArg Int64.toInt hs)
    · exact .inr (settlementHeight_eq_zero.mp hs)
  have hnonneg := h.settlementHeight_nonneg
  cases p with
  | opened => exact Nat.zero_le _
  | settlementPeriod =>
    rw [h.settlementPeriod_iff] at hp
    cases p' with
    | opened =>
      rw [h'.opened_iff] at hp'
      omega
    | settlementPeriod => exact le_refl _
    | settled => exact Nat.le_succ _
  | settled =>
    rw [h.settled_iff] at hp
    cases p' with
    | opened =>
      rw [h'.opened_iff] at hp'
      omega
    | settlementPeriod =>
      rw [h'.settlementPeriod_iff] at hp'
      omega
    | settled => exact le_refl _

/-- A height as the chain counts them. -/
theorem exists_height {n : ℤ} (h0 : 0 ≤ n) (hn : n < 2 ^ 63) : ∃ t : Int64, t.toInt = n :=
  ⟨Int64.ofInt n, Int64.toInt_ofInt_of_le (by omega) (by omega)⟩

/-- **When the life cycle holds.** -/
theorem Wf.lifeCycle_iff (h : c.Wf cr) : c.LifeCycle ↔
    c.settlementHeight = 0 ∨ c.settlementPeriodEnd.toInt ≤ c.closing := by
  have hpos := h.height_pos
  have hlt := h.height_lt_expiration
  have hle := h.expiration_le_settlementPeriodEnd
  constructor
  · intro hlife
    by_contra hnot
    obtain ⟨hs, hgap⟩ := not_or.mp hnot
    -- the first height of the gap is after the opening
    have hfits := c.settlementPeriodEnd.toInt_lt
    obtain ⟨t, ht⟩ := exists_height (n := max c.height.toInt c.closing) (by omega) (by omega)
    have hone := (h.onePhase_iff (t := t)).mp (hlife.one t (by omega))
    rcases hone with h0 | hbefore | hafter
    · exact hs h0
    · omega
    · omega
  · intro hcond
    refine ⟨?_, ?_, ?_⟩
    · intro t ht
      rw [h.onePhase_iff]
      refine hcond.imp_right ?_
      omega
    · intro t t' htt p p' hp hp'
      exact h.forward h (.refl 0 0 c) htt hp hp'
    · intro hs t ht
      have hend := hcond.resolve_left hs
      have hs' := mt settlementHeight_eq_zero.mpr hs
      have hsettled : Phase.settled.holds c t = true := by
        rw [h.settled_iff]
        unfold closing at hend
        omega
      exact hsettled

end Contract

variable {cr : Crypto} {w w' : World}

theorem run_height (hi : Inv cr w.ctx w.chain) {actions : List Action}
    (h : Runs.run (step cr) w actions = some w') :
    w.ctx.blockHeight.toInt ≤ w'.ctx.blockHeight.toInt := by
  have hall : Inv cr w'.ctx w'.chain ∧ w.ctx.blockHeight.toInt ≤ w'.ctx.blockHeight.toInt :=
    Runs.run_induct (P := fun v => Inv cr v.ctx v.chain ∧
      w.ctx.blockHeight.toInt ≤ v.ctx.blockHeight.toInt)
      (fun _ _ _ hv hstep => ⟨(step_outcome hv.1 hstep).inv hv.1,
        hv.2.trans (step_height hv.1 hstep)⟩) ⟨hi, le_refl _⟩ h
  exact hall.2

/-- **The life cycle of the contracts of a run.**  It holds of a contract in a
reachable store exactly if the contract is not finally settled or its settlement
period ends no later than its closing; the gap is what lies in between.  From one
state of the run to a later one the phase of a contract never goes back. -/
theorem reachable_lifeCycle_iff (hg : Genesis w) {actions : List Action}
    (hrun : Runs.run (step cr) w actions = some w') {k : ℕ} {c : Contract}
    (hc : w'.chain.contracts.lookup k = some c) :
    (c.LifeCycle ↔ c.settlementHeight = 0 ∨ c.settlementPeriodEnd.toInt ≤ c.closing) ∧
    (∀ t : Int64, c.OnePhase t ↔ c.settlementHeight = 0 ∨ t.toInt < c.closing ∨
      c.settlementPeriodEnd.toInt ≤ t.toInt) ∧
    ∀ (actions' : List Action) (v : World) (c' : Contract),
      Runs.run (step cr) w' actions' = some v → v.chain.contracts.lookup k = some c' →
      ∀ p p' : Phase, p.holds c w'.ctx.blockHeight = true →
        p'.holds c' v.ctx.blockHeight = true → p.rank ≤ p'.rank := by
  have hinv := reachable_inv hg hrun
  have hw := (hinv.stored k c hc).wf
  refine ⟨hw.lifeCycle_iff, fun t => hw.onePhase_iff, ?_⟩
  intro actions' v c' hrun' hc' p p' hp hp'
  have hinv' := reachable_inv hg (Runs.run_append.mpr ⟨w', hrun, hrun'⟩)
  obtain ⟨d, hd, hlater⟩ := run_later hinv hrun' hc
  rw [hc'] at hd
  obtain rfl := Option.some.inj hd
  exact hw.forward (hinv'.stored k c' hc').wf hlater (run_height hinv hrun') hp hp'

namespace Sample

/-- The client opens a subscription of ten blocks and a pay-as-you-go contract, and
closes the subscription at once. -/
def closing : List Action :=
  setup ++
    [.msg (.openContract { openMsg .subscription 100 with duration := 10 }),
     .msg (.openContract (openMsg .payAsYouGo 100)),
     .msg (.closeContract
      { creator := client.account, contractId := 1, client := some client.pubKey, delegate := none })]

theorem closing_run : ∃ w c c', Runs.run (step crypto) genesis closing = some w ∧
    w.chain.contracts.lookup 1 = some c ∧ w.chain.contracts.lookup 2 = some c' ∧
    c.height = 1 ∧ c.settlementHeight = 1 ∧
    (∀ p : Phase, p.holds c 5 = false) ∧ c'.settlementHeight = 0 := by
  have h : ((Runs.run (step crypto) genesis closing).bind fun w =>
      (w.chain.contracts.lookup 1).bind fun c => (w.chain.contracts.lookup 2).map fun c' =>
        (c.height, c.settlementHeight, Phase.opened.holds c 5,
          Phase.settlementPeriod.holds c 5, Phase.settled.holds c 5, c'.settlementHeight)) =
      some (1, 1, false, false, false, 0) := by
    rw [closing, Runs.run_append_of setup_run]
    decide +kernel
  obtain ⟨w, hw, h⟩ := Option.bind_eq_some_iff.mp h
  obtain ⟨c, hc, h⟩ := Option.bind_eq_some_iff.mp h
  obtain ⟨c', hc', h⟩ := Option.map_eq_some_iff.mp h
  simp only [Prod.mk.injEq] at h
  obtain ⟨h1, h2, h3, h4, h5, h6⟩ := h
  refine ⟨w, c, c', hw, hc, hc', h1, h2, ?_, h6⟩
  intro p
  cases p with
  | opened => exact h3
  | settlementPeriod => exact h4
  | settled => exact h5

end Sample

/-- The life cycle of the contract that is not closed holds. -/
theorem lifeCycle_of_unsettled : ∃ w c, Runs.run (step Sample.crypto) Sample.genesis Sample.closing =
    some w ∧ w.chain.contracts.lookup 2 = some c ∧ c.LifeCycle := by
  obtain ⟨w, -, c, hw, -, hc, -, -, -, h0⟩ := Sample.closing_run
  exact ⟨w, c, hw, hc, (reachable_lifeCycle_iff Sample.genesis_ok hw hc).1.mpr (.inl h0)⟩

/-- **A subscription that is closed early is in no phase**: it was settled at
height 1, and at height 5 none of the three predicates holds. -/
theorem closed_in_no_phase : Genesis Sample.genesis ∧ ∃ w c,
    Runs.run (step Sample.crypto) Sample.genesis Sample.closing = some w ∧
    w.chain.contracts.lookup 1 = some c ∧ c.settlementHeight = 1 ∧
    (∀ p : Phase, p.holds c 5 = false) ∧ ¬c.LifeCycle := by
  obtain ⟨w, c, -, hw, hc, -, hh, hs, hnone, -⟩ := Sample.closing_run
  refine ⟨Sample.genesis_ok, w, c, hw, hc, hs, hnone, ?_⟩
  intro hlife
  obtain ⟨p, hp, -⟩ := hlife.one 5 (by rw [hh]; decide)
  exact Bool.false_ne_true ((hnone p).symm.trans hp)

end Arkeo
