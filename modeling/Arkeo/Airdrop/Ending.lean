import Arkeo.Airdrop.Decay
import Arkeo.Airdrop.Conservation

/-! # The end of the airdrop

The end blocker adds the durations to the start and compares times, the claims subtract the
start from the time and compare durations.  As long as the durations add up and the time that
has passed can be counted, both see the same end (`airdropEnded_iff`).  From then on no message
moves coins (`handler_bank`), and the end blocker moves what is left once: it marks the store
when it does, and no step takes the mark away.
-/
namespace Arkeo.Airdrop
open Exec

variable {env : Env} {ctx : Context} {s : Store} {p : Params} {r : ClaimRecord} {a : Action}

/-- The last instant of the airdrop. -/
def Params.endTime (p : Params) : ℤ :=
  p.airdropStartTime + p.durationUntilDecay.toInt + p.durationOfDecay.toInt

theorem endBlocker_eq (ctx : Context) (s : Store) : endBlocker ctx s =
    if s.moved = false ∧ ctx.params.endTime < ctx.blockTime then
      (transferRemainingToReserve ctx.params >>= fun _ =>
        writing fun s => { s with moved := true }) s
    else .ok () s := by
  unfold endBlocker Params.endTime
  rw [reading_bind]
  cases hm : s.moved with
  | true => rfl
  | false =>
    simp only [Bool.not_false, Bool.true_and, decide_eq_true_eq, true_and]
    split <;> rfl

/-- **Both sides see the same end.** -/
theorem airdropEnded_iff (hp : p.Sane) {time : ℤ} (hlo : -2 ^ 63 ≤ time - p.airdropStartTime)
    (hhi : time - p.airdropStartTime < 2 ^ 63) (hne : r.isEmpty = false)
    (hv : (r.amount a).value ≠ 0) :
    claimableAmount ⟨p, time⟩ r a = .error (.err .airdropEnded) ↔ p.endTime < time := by
  unfold Params.endTime
  by_cases hs : (⟨p, time⟩ : Context).Started
  · have hiff : (⟨p, time⟩ : Context).Ended ↔ p.durationUntilDecay.toInt +
        p.durationOfDecay.toInt < (timeSub time p.airdropStartTime).toInt := Context.ended_iff hp
    rw [timeSub_toInt] at hiff
    rw [claimableAmount_eq hne hs hv]
    by_cases hend : (⟨p, time⟩ : Context).Ended
    · have hlate := hiff.mp hend
      rw [if_pos hend]
      exact ⟨fun _ => by omega, fun _ => rfl⟩
    · have hearly := mt hiff.mpr hend
      rw [if_neg hend]
      refine ⟨fun h => ?_, fun _ => by omega⟩
      split at h <;> cases h
  · have hu := hp.until_nonneg
    have hd := hp.decay_nonneg
    have hearly : ¬p.airdropStartTime ≤ time := hs
    rw [claimableAmount_nothing (.inr (.inl hs))]
    exact ⟨nofun, fun _ => by omega⟩

/-! ## After the end -/

/-- The airdrop of a block has ended. -/
structure Context.Over (ctx : Context) : Prop where
  sane : ctx.params.Sane
  ended : ctx.params.endTime < ctx.blockTime
  counted : ctx.blockTime - ctx.params.airdropStartTime < 2 ^ 63

theorem Context.Over.claimable (h : ctx.Over) (r : ClaimRecord) (a : Action) :
    claimableAmount ctx r a = .ok {} ∨ claimableAmount ctx r a = .error (.err .airdropEnded) := by
  have hu := h.sane.until_nonneg
  have hd := h.sane.decay_nonneg
  have hended := h.ended
  unfold Params.endTime at hended
  by_cases hskip : (r.isEmpty || decide (ctx.blockTime < ctx.params.airdropStartTime) ||
      (r.amount a).isNil || decide ((r.amount a).value = 0)) = true
  · left
    unfold claimableAmount
    exact if_pos hskip
  · right
    simp only [Bool.or_eq_true, decide_eq_true_eq, not_or, Bool.not_eq_true] at hskip
    obtain ⟨⟨⟨hne, -⟩, -⟩, hv⟩ := hskip
    exact (airdropEnded_iff h.sane (by omega) h.counted hne hv).mpr h.ended

/-- Nothing is paid any more, for no action. -/
theorem Context.Over.readOnly_claim (h : ctx.Over) (address : String) (a : Action) :
    ReadOnly (claimCoinsForAction env ctx address a) := by
  intro s
  unfold claimCoinsForAction
  rcases (readOnly_getClaimable ctx address a .arkeo).bind_outcome _ s with
    ⟨claimable, hclaim, hrest⟩ | ⟨e, -, hrest⟩
  · rw [hrest]
    unfold getClaimableAmountForAction at hclaim
    rw [reading_bind] at hclaim
    have hamount := (fromExcept_ok.mp hclaim).1
    rcases h.claimable (getClaimRecord address .arkeo s) a with hnone | hended
    · rw [hnone] at hamount
      cases hamount
      rfl
    · rw [hended] at hamount
      cases hamount
  · rw [hrest]
    rfl

/-! ## What the messages write

A message writes records and pays for actions, and nothing else. -/

section
variable {P : Store → Prop} (hset : ∀ r, Preserves P (setClaimRecord env r))
  (hclaim : ∀ address a, Preserves P (claimCoinsForAction env ctx address a))
include hclaim

theorem claimArkeo_preserves (creator : String) : Preserves P (claimArkeo env ctx creator) := by
  refine (readOnly_reading _).preserves.bind fun r => .failIf fun _ => ?_
  refine (readOnly_ofOption _ _).preserves.bind fun zero => .failIf fun _ => ?_
  refine (hclaim creator .claim).bind fun _ => ?_
  exact (readOnly_ofOption _ _).preserves.bind fun _ => (readOnly_pure _).preserves

theorem claimLogged_preserves (address : String) (a : Action) :
    Preserves P (claimLogged env ctx address a) :=
  .logged ((hclaim address a).bind fun _ => (readOnly_pure _).preserves)

include hset

theorem claimEth_preserves (creator ethAddress signature : String) :
    Preserves P (claimEth env ctx creator ethAddress signature) := by
  refine (readOnly_reading _).preserves.bind fun ethClaim => ?_
  refine (readOnly_nothingLeft _).preserves.bind fun _ => .failIf fun _ => ?_
  refine (readOnly_ofOption _ _).preserves.bind fun total => ?_
  refine (readOnly_ofOption _ _).preserves.bind fun ethClaimAmount => .failIf fun _ => ?_
  refine (hset _).bind fun _ => ?_
  refine (readOnly_reading _).preserves.bind fun existing => ?_
  refine (readOnly_claimAmountOf _).preserves.bind fun existingAmount => ?_
  refine (readOnly_fromExcept _).preserves.bind fun merged => ?_
  exact (hset _).bind fun _ => (hclaim creator .claim).bind fun _ => (readOnly_pure _).preserves

omit hclaim in
theorem claimThorchain_preserves (creator src dst : String) :
    Preserves P (claimThorchain env creator src dst) := by
  refine .failIf fun _ => .failIf fun _ => ?_
  refine (readOnly_reading _).preserves.bind fun srcClaim => ?_
  refine (readOnly_nothingLeft _).preserves.bind fun _ => .failIf fun _ => ?_
  refine (readOnly_reading _).preserves.bind fun dstClaim => ?_
  refine (readOnly_ofOption _ _).preserves.bind fun claim => ?_
  refine (readOnly_ofOption _ _).preserves.bind fun vote => ?_
  refine (readOnly_ofOption _ _).preserves.bind fun delegate => ?_
  exact (hset _).bind fun _ => (hset _).bind fun _ => (readOnly_pure _).preserves

theorem transferClaim_preserves (creator dst : String) :
    Preserves P (transferClaim env ctx creator dst) := by
  refine (readOnly_reading _).preserves.bind fun original => ?_
  refine (readOnly_nothingLeft _).preserves.bind fun _ => .failIf fun _ => .failIf fun _ => ?_
  refine (hset _).bind fun _ => ?_
  refine (readOnly_reading _).preserves.bind fun existing => ?_
  refine (readOnly_fromExcept _).preserves.bind fun merged => ?_
  exact (hset _).bind fun _ => (hclaim dst .claim).bind fun _ => (readOnly_pure _).preserves

/-- **What survives the writes of the messages survives the messages.** -/
theorem handler_preserves {m : Msg} (hm : ∀ time, m ≠ .nextBlock time) :
    Preserves P (handler env ctx m) := by
  cases m with
  | claimArkeo creator =>
    exact .failIf fun _ => (claimArkeo_preserves hclaim creator).bind fun _ =>
      (readOnly_pure _).preserves
  | claimEth creator ethAddress signature =>
    exact .failIf fun _ => (claimEth_preserves hset hclaim creator ethAddress signature).bind
      fun _ => (readOnly_pure _).preserves
  | claimThorchain creator src dst =>
    exact .failIf fun _ => (claimThorchain_preserves hset creator src dst).bind fun _ =>
      (readOnly_pure _).preserves
  | transferClaim creator dst =>
    exact .failIf fun _ => transferClaim_preserves hset hclaim creator dst
  | vote voter => exact claimLogged_preserves hclaim voter .vote
  | delegate delegator => exact claimLogged_preserves hclaim delegator .delegate
  | nextBlock time => exact absurd rfl (hm time)

end

/-- The coins, the payments and the mark are the same. -/
structure SameFunds (s t : Store) : Prop where
  bank : t.bank = s.bank
  payments : t.payments = s.payments
  moved : t.moved = s.moved

theorem SameFunds.refl (s : Store) : SameFunds s s := ⟨rfl, rfl, rfl⟩

/-- No message and no hook moves coins after the end. -/
theorem Context.Over.handler_funds (h : ctx.Over) {m : Msg} (hm : ∀ time, m ≠ .nextBlock time) :
    Preserves (SameFunds s) (handler env ctx m) :=
  handler_preserves (fun _ => .failIf fun _ => .writing fun _ h => ⟨h.bank, h.payments, h.moved⟩)
    (fun address a => (h.readOnly_claim address a).preserves) hm

/-- No message and no hook touches the mark. -/
theorem handler_moved {b : Bool} {m : Msg} (hm : ∀ time, m ≠ .nextBlock time) :
    Preserves (fun t : Store => t.moved = b) (handler env ctx m) := by
  have hset : ∀ r, Preserves (fun t : Store => t.moved = b) (setClaimRecord env r) :=
    fun _ => .failIf fun _ => .writing fun _ h => h
  refine handler_preserves hset (fun address a => ?_) hm
  refine (readOnly_getClaimable _ _ _ _).preserves.bind fun claimable => ?_
  split
  · exact (readOnly_pure _).preserves
  refine (readOnly_reading _).preserves.bind fun r => ?_
  refine (readOnly_ofOption _ _).preserves.bind fun account => ?_
  refine Preserves.bind (.failIf fun _ => .failIf fun _ => ?_) fun _ =>
    (hset _).bind fun _ => (readOnly_pure _).preserves
  exact (readOnly_reading _).preserves.bind fun balance => .failIf fun _ => .writing fun _ h => h

/-! ## Steps and runs -/

variable {w w' u u' v v' : World} {m : Msg} {time : ℤ}

/-- A block that sweeps what is left to the reserve. -/
structure Sweep (env : Env) (w : World) (time : ℤ) (w' : World) : Prop where
  step : step env w (.nextBlock time) = some w'
  unmarked : w.store.moved = false
  marked : w'.store.moved = true

/-- **The end of a block**: a sweep after the end of the airdrop, or nothing. -/
theorem nextBlock_cases (h : step env w (.nextBlock time) = some w') :
    w.ctx.blockTime ≤ time ∧ w'.ctx = { w.ctx with blockTime := time } ∧
      ((w.store.moved = false ∧ w.ctx.params.endTime < w.ctx.blockTime ∧ w'.store.moved = true) ∨
        ¬(w.store.moved = false ∧ w.ctx.params.endTime < w.ctx.blockTime) ∧ w'.store = w.store) := by
  unfold step at h
  cases hc : committed (handler env w.ctx (.nextBlock time)) w.store with
  | none =>
    rw [hc] at h
    cases h
  | some s =>
    rw [hc] at h
    simp only at h
    split at h
    · rename_i htime
      cases h
      refine ⟨htime, rfl, ?_⟩
      obtain ⟨_, hend⟩ := committed_some.mp hc
      change endBlocker w.ctx w.store = _ at hend
      rw [endBlocker_eq] at hend
      split at hend
      · rename_i hcond
        obtain ⟨_, t, -, hmark⟩ := bind_ok.mp hend
        obtain rfl := writing_ok.mp hmark
        exact .inl ⟨hcond.1, hcond.2, rfl⟩
      · rename_i hcond
        cases hend
        exact .inr ⟨hcond, rfl⟩
    · cases h

/-- A message that is no block, inverted. -/
theorem step_msg (h : step env w m = some w') (hm : ∀ time, m ≠ .nextBlock time) :
    w'.ctx = w.ctx ∧
      (committed (handler env w.ctx m) w.store = some w'.store ∨ w'.store = w.store) := by
  rcases step_cases h with ⟨time, s, rfl, -, -⟩ | ⟨s, hc, rfl⟩ | rfl
  · exact absurd rfl (hm time)
  · exact ⟨rfl, .inl hc⟩
  · exact ⟨rfl, .inr rfl⟩

theorem step_time (h : step env w m = some w') : w.ctx.blockTime ≤ w'.ctx.blockTime := by
  by_cases hm : ∃ time, m = .nextBlock time
  · obtain ⟨time, rfl⟩ := hm
    obtain ⟨hle, hctx, -⟩ := nextBlock_cases h
    rw [hctx]
    exact hle
  · rw [(step_msg h fun time ht => hm ⟨time, ht⟩).1]

/-- The mark stays. -/
theorem step_marked (h : step env w m = some w') (hw : w.store.moved = true) :
    w'.store.moved = true := by
  by_cases hm : ∃ time, m = .nextBlock time
  · obtain ⟨time, rfl⟩ := hm
    rcases (nextBlock_cases h).2.2 with ⟨-, -, hmark⟩ | ⟨-, hsame⟩
    · exact hmark
    · rw [hsame]
      exact hw
  · have hm' : ∀ time, m ≠ .nextBlock time := fun time ht => hm ⟨time, ht⟩
    rcases (step_msg h hm').2 with hc | hsame
    · exact (handler_moved hm').committed hw hc
    · rw [hsame]
      exact hw

/-- After the end only a sweep changes the funds. -/
theorem step_funds (h : step env w m = some w') (hover : w.ctx.Over) :
    SameFunds w.store w'.store ∨ ∃ time, m = .nextBlock time ∧ Sweep env w time w' := by
  by_cases hm : ∃ time, m = .nextBlock time
  · obtain ⟨time, rfl⟩ := hm
    rcases (nextBlock_cases h).2.2 with ⟨hun, -, hmark⟩ | ⟨-, hsame⟩
    · exact .inr ⟨time, rfl, h, hun, hmark⟩
    · rw [hsame]
      exact .inl (.refl _)
  · have hm' : ∀ time, m ≠ .nextBlock time := fun time ht => hm ⟨time, ht⟩
    rcases (step_msg h hm').2 with hc | hsame
    · exact .inl ((hover.handler_funds hm').committed (.refl _) hc)
    · rw [hsame]
      exact .inl (.refl _)

/-- What a run keeps: the parameters, the order of the times, the mark. -/
structure Follows (w w' : World) : Prop where
  params : w'.ctx.params = w.ctx.params
  time_le : w.ctx.blockTime ≤ w'.ctx.blockTime
  marked : w.store.moved = true → w'.store.moved = true

theorem run_follows {msgs : List Msg} (h : Runs.run (step env) w msgs = some w') : Follows w w' := by
  refine Runs.run_induct (P := Follows w) ?_ ⟨rfl, le_rfl, id⟩ h
  intro u m u' hu hstep
  exact ⟨(step_params hstep).trans hu.params, hu.time_le.trans (step_time hstep),
    fun hw => step_marked hstep (hu.marked hw)⟩

/-- **The end blocker and the claims agree on the end of the airdrop.**  The end blocker acts
at a time exactly if the claims of what is still there are refused as ended.  So at the time
of a sweep and later nothing changes the funds but the sweep, and there is no other. -/
theorem sweep_ends_airdrop (env : Env) {p : Params} (hp : p.Sane) :
    (∀ (time : ℤ) (r : ClaimRecord) (a : Action) (s : Store), -2 ^ 63 ≤ time - p.airdropStartTime →
      time - p.airdropStartTime < 2 ^ 63 → r.isEmpty = false → (r.amount a).value ≠ 0 →
      s.moved = false →
      (endBlocker ⟨p, time⟩ s ≠ .ok () s ↔
        claimableAmount ⟨p, time⟩ r a = .error (.err .airdropEnded))) ∧
    (∀ u u' time, step env u (.nextBlock time) = some u' → u'.store ≠ u.store → Sweep env u time u') ∧
    ∀ v time v', Sweep env v time v' → v.ctx.params = p → ∀ u u' m msgs,
      step env u m = some u' → u.ctx.blockTime - p.airdropStartTime < 2 ^ 63 →
      (Runs.run (step env) u' msgs = some v ∧ v.ctx.blockTime ≤ u.ctx.blockTime ∨
        Runs.run (step env) v' msgs = some u) → SameFunds u.store u'.store := by
  refine ⟨?_, ?_, ?_⟩
  · intro time r a s hlo hhi hne hv hmoved
    rw [airdropEnded_iff hp hlo hhi hne hv, endBlocker_eq]
    by_cases hended : p.endTime < time
    · rw [if_pos ⟨hmoved, hended⟩]
      refine ⟨fun _ => hended, fun _ hsame => ?_⟩
      obtain ⟨_, t, -, hmark⟩ := bind_ok.mp hsame
      have hmarked := congrArg Store.moved (writing_ok.mp hmark)
      rw [hmoved] at hmarked
      cases hmarked
    · rw [if_neg fun h => hended h.2]
      exact ⟨fun h => absurd rfl h, fun h => absurd h hended⟩
  · intro u u' time hstep hchange
    rcases (nextBlock_cases hstep).2.2 with ⟨hun, -, hmark⟩ | ⟨-, hsame⟩
    · exact ⟨hstep, hun, hmark⟩
    · exact absurd hsame hchange
  · intro v time v' hsweep hpv u u' m msgs hstep hcount hwhen
    obtain ⟨hle, hctx, hcases⟩ := nextBlock_cases hsweep.step
    have hended : v.ctx.params.endTime < v.ctx.blockTime := by
      rcases hcases with ⟨-, hended, -⟩ | ⟨-, hsame⟩
      · exact hended
      · have hmark := hsweep.marked
        rw [hsame, hsweep.unmarked] at hmark
        cases hmark
    have hu : u.ctx.params = p ∧ v.ctx.blockTime ≤ u.ctx.blockTime := by
      rcases hwhen with ⟨hrun, htime⟩ | hrun
      · exact ⟨(step_params hstep).symm.trans ((run_follows hrun).params.symm.trans hpv), htime⟩
      · have hf := run_follows hrun
        refine ⟨hf.params.trans ((step_params hsweep.step).trans hpv), ?_⟩
        exact (step_time hsweep.step).trans hf.time_le
    have hover : u.ctx.Over := by
      rw [hpv] at hended
      exact ⟨hu.1 ▸ hp, hu.1 ▸ hended.trans_le hu.2, hu.1 ▸ hcount⟩
    rcases step_funds hstep hover with hsame | ⟨t, -, hagain⟩
    · exact hsame
    -- a second sweep would find the mark of the first
    rcases hwhen with ⟨hrun, -⟩ | hrun
    · have hmark := (run_follows hrun).marked hagain.marked
      rw [hsweep.unmarked] at hmark
      cases hmark
    · have hmark := (run_follows hrun).marked hsweep.marked
      rw [hagain.unmarked] at hmark
      cases hmark

namespace Sample

/-- The thousand coins of the module are swept at time 201, and the holder, whose claim comes
too late, leaves the funds as they are. -/
theorem swept_once : ∃ s v v' u', initGenesis Sample.env bank records = some s ∧
    Runs.run (step Sample.env) (genesis s Sample.ctx) [.nextBlock 201] = some v ∧
    Sweep Sample.env v 300 v' ∧ v'.store.bank.bal .reserve defaultClaimDenom = 1000 ∧
    step Sample.env v' (.claimArkeo holder) = some u' ∧ SameFunds v'.store u'.store := by
  have h : ((initGenesis Sample.env bank records).bind fun s =>
      (Runs.run (step Sample.env) (genesis s Sample.ctx) [.nextBlock 201]).bind fun v =>
        (step Sample.env v (.nextBlock 300)).bind fun v' =>
          (step Sample.env v' (.claimArkeo holder)).map fun _ =>
            (v.ctx.params, v.store.moved, v'.store.moved, v'.ctx.blockTime,
              v'.store.bank.bal .reserve defaultClaimDenom)) =
      some (Sample.ctx.params, false, true, 300, 1000) := by decide +kernel
  obtain ⟨s, hs, h⟩ := Option.bind_eq_some_iff.mp h
  obtain ⟨v, hv, h⟩ := Option.bind_eq_some_iff.mp h
  obtain ⟨v', hv', h⟩ := Option.bind_eq_some_iff.mp h
  obtain ⟨u', hu', h⟩ := Option.map_eq_some_iff.mp h
  simp only [Prod.mk.injEq] at h
  obtain ⟨hp, hun, hmark, htime, hbal⟩ := h
  have hsweep : Sweep Sample.env v 300 v' := ⟨hv', hun, hmark⟩
  refine ⟨s, v, v', u', hs, hv, hsweep, hbal, hu', ?_⟩
  have hsane : Sample.ctx.params.Sane := ⟨by decide, by decide, by decide⟩
  refine (sweep_ends_airdrop Sample.env hsane).2.2 v 300 v' hsweep hp v' u' _ [] hu' ?_ (.inr rfl)
  rw [htime]
  decide

end Sample

end Arkeo.Airdrop
