import Arkeo.Directory.Indexer

/-! # Filling gaps

The indexer follows the chain with two goroutines.  `gapFiller`, which runs on every new
block, compares the latest block of the chain with the latest stored one and hands the gap
over to `blockGapProcessor`, if that is waiting; otherwise the gap is dropped.  `fillGap` then
consumes the blocks one by one: the events of a block are applied, and its height is stored.

The two writes are separate.  When the second fails the loop goes on to the next block, and
should that be the end of the gap, the block is consumed again with the next one.  And the
height that `gapFiller` has read may be overtaken, while it asks for the latest block, by the
gap that is just being filled.  Every block is applied once and in order as long as neither
happens (`applied_in_order_iff`).
-/
namespace Arkeo.Directory
open Exec

/-! ## The two goroutines -/

/-- `db.BlockGap`, both ends included. -/
structure BlockGap where
  start : ℤ
  endHeight : ℤ
  deriving DecidableEq, Repr

/-- Where the goroutine that calls `gapFiller` stands. -/
inductive Filler where
  | idle
  /-- It has read the latest stored height. -/
  | stored (height : ℤ)
  /-- It knows the latest block of the chain as well. -/
  | todo (gap : BlockGap)
  deriving DecidableEq, Repr

/-- How the loop of `fillGap` has come to its top. -/
inductive Entry where
  | received
  /-- From a block whose height was stored. -/
  | stored
  /-- From a block whose height was not. -/
  | missed
  deriving DecidableEq, Repr

/-- Where `blockGapProcessor` stands. -/
inductive Processor where
  | waiting
  /-- At the top of the loop, before the block `i`. -/
  | filling (i : ℤ) (gap : BlockGap) (entry : Entry)
  /-- The events of the block `i` are applied, and its height is not yet stored. -/
  | consumed (i : ℤ) (gap : BlockGap)
  | stopped
  deriving DecidableEq, Repr

structure Indexer where
  /-- The latest block of the chain. -/
  chainHeight : ℤ
  /-- The height in the only row of `blocks`. -/
  latest : Option ℤ := none
  /-- The height in `indexer_status`. -/
  status : Option ℤ := none
  tables : Database := {}
  /-- The heights of the blocks that were consumed, the last one last. -/
  applied : List ℤ := []
  filler : Filler := .idle
  processor : Processor := .waiting
  done : Bool := false

/-- What `InsertBlock` comes to.  A write that is not acknowledged, because the time is up, is
an error to the caller. -/
inductive InsertBlock where
  | ok
  | unacknowledged
  | failed
  deriving DecidableEq, Repr

inductive IndexerAction where
  /-- The chain commits a block. -/
  | newBlock
  /-- The first half of `gapFiller`, to the answer of the database. -/
  | findLatestBlock (fails : Bool)
  /-- Its second half, to the answer of the node. -/
  | block (fails : Bool)
  /-- The `select` at its end. -/
  | handOver
  /-- A turn of the loop of `fillGap`, up to the consumed block. -/
  | consumeHistoricalBlock (fails : Bool)
  /-- The rest of the turn. -/
  | insertBlock (result : InsertBlock) (statusFails : Bool)
  /-- `Close`. -/
  | close
  /-- `blockGapProcessor` sees that the service is closed. -/
  | stop
  deriving DecidableEq, Repr

namespace Indexer

/-- The height of a block in the database that is not there is zero. -/
def storedHeight (x : Indexer) : ℤ := x.latest.getD 0

/-- `gapFiller`, when the height `height` was found in the database. -/
def gap (x : Indexer) (height : ℤ) : Filler :=
  if x.chainHeight - height ≤ 0 then .idle else .todo ⟨height + 1, x.chainHeight⟩

/-- The row that is left by `InsertBlock`. -/
def inserted (x : Indexer) (i : ℤ) : InsertBlock → Option ℤ
  | .ok | .unacknowledged => some i
  | .failed => x.latest

end Indexer

/-- How the loop goes on after `InsertBlock`. -/
def InsertBlock.entry : InsertBlock → Entry
  | .ok | .unacknowledged => .stored
  | .failed => .missed

variable {cr : Crypto} (b : Bech32 cr) (events : ℤ → List (Int64 × Event))

/-- One step of the service, on a chain whose blocks have these events; a panic in one of the
handlers ends it. -/
def indexerStep (x : Indexer) : IndexerAction → Option Indexer
  | .newBlock => some { x with chainHeight := x.chainHeight + 1 }
  | .findLatestBlock fails =>
      match x.filler with
      | .idle =>
          if x.done || fails then some x else some { x with filler := .stored x.storedHeight }
      | _ => none
  | .block fails =>
      match x.filler with
      | .stored height => some { x with filler := if fails then .idle else x.gap height }
      | _ => none
  | .handOver =>
      match x.filler with
      | .todo gap =>
          if x.processor = .waiting ∧ x.done = false then
            some { x with filler := .idle, processor := .filling gap.start gap .received }
          else some { x with filler := .idle }
      | _ => none
  | .consumeHistoricalBlock fails =>
      match x.processor with
      | .filling i gap _ =>
          if gap.endHeight < i then some { x with processor := .waiting }
          else if x.done then some { x with processor := .stopped }
          else if fails then some { x with processor := .waiting }
          else (x.tables.consume b (events i)).map fun tables =>
            { x with tables := tables, applied := x.applied ++ [i], processor := .consumed i gap }
      | _ => none
  | .insertBlock result statusFails =>
      match x.processor with
      | .consumed i gap =>
          some { x with
            latest := x.inserted i result
            -- an error is not followed by the update of the status
            status := if result = .ok ∧ statusFails = false then some i else x.status
            processor := .filling (i + 1) gap result.entry }
      | _ => none
  | .close => some { x with done := true }
  | .stop =>
      match x.processor with
      | .waiting => if x.done then some { x with processor := .stopped } else none
      | _ => none

/-! ## What a step does -/

/-- No gap is being filled. -/
def Processor.Idle : Processor → Prop
  | .waiting | .stopped => True
  | .filling _ _ _ | .consumed _ _ => False

/-- The condition at the top of the loop. -/
def Processor.Orderly (x : Indexer) (fails : Bool) : Processor → Prop
  | .filling i gap entry =>
      if x.done = false ∧ fails = false ∧ i ≤ gap.endHeight then
        entry = .received → gap.start = x.storedHeight + 1
      else entry ≠ .missed
  | _ => True

/-- **The condition.**  The first block of a gap is consumed only when the gap starts after
the stored height, so that no other gap has overtaken the height it was made from; and a gap
ends, at its last block, at a block that cannot be retrieved or at the shutdown, only when the
height of the block before was stored. -/
def Orderly (x : Indexer) : IndexerAction → Prop
  | .consumeHistoricalBlock fails => x.processor.Orderly x fails
  | _ => True

instance (x : Indexer) (fails : Bool) : ∀ p, Decidable (Processor.Orderly x fails p)
  | .filling i gap entry =>
      inferInstanceAs (Decidable (if x.done = false ∧ fails = false ∧ i ≤ gap.endHeight then
        entry = .received → gap.start = x.storedHeight + 1 else entry ≠ .missed))
  | .waiting | .consumed _ _ | .stopped => isTrue trivial

instance (x : Indexer) : ∀ a, Decidable (Orderly x a)
  | .consumeHistoricalBlock fails => inferInstanceAs (Decidable (x.processor.Orderly x fails))
  | .newBlock | .findLatestBlock _ | .block _ | .handOver | .insertBlock _ _ | .close | .stop =>
      isTrue trivial

/-- The height that is stored and the blocks that are applied stay. -/
structure Kept (x x' : Indexer) : Prop where
  latest : x'.latest = x.latest
  applied : x'.applied = x.applied
  tables : x'.tables = x.tables

/-- What a step does to the gap that is filled. -/
inductive Moves (x : Indexer) (a : IndexerAction) (x' : Indexer) : Prop
  | aside (hk : Kept x x') (hp : x'.processor = x.processor) (hs : Orderly x a)
  | received (gap : BlockGap) (hk : Kept x x') (hp : x.processor = .waiting)
      (hp' : x'.processor = .filling gap.start gap .received) (hs : Orderly x a)
  | ended (i : ℤ) (gap : BlockGap) (entry : Entry) (hk : Kept x x')
      (hp : x.processor = .filling i gap entry) (hp' : x'.processor.Idle)
      (hs : Orderly x a ↔ entry ≠ .missed)
  | stopped (hk : Kept x x') (hp : x.processor = .waiting) (hp' : x'.processor = .stopped)
      (hs : Orderly x a)
  | consumed (i : ℤ) (gap : BlockGap) (entry : Entry) (hp : x.processor = .filling i gap entry)
      (hp' : x'.processor = .consumed i gap) (latest : x'.latest = x.latest)
      (applied : x'.applied = x.applied ++ [i])
      (tables : x.tables.consume b (events i) = some x'.tables)
      (hs : Orderly x a ↔ (entry = .received → gap.start = x.storedHeight + 1))
  | inserted (i : ℤ) (gap : BlockGap) (result : InsertBlock) (hp : x.processor = .consumed i gap)
      (hp' : x'.processor = .filling (i + 1) gap result.entry)
      (latest : x'.latest = x.inserted i result) (applied : x'.applied = x.applied)
      (tables : x'.tables = x.tables) (hs : Orderly x a)

variable {b events} {x x' : Indexer} {a : IndexerAction}

/-- **Every step is one of these.** -/
theorem indexerStep_moves (h : indexerStep b events x a = some x') : Moves b events x a x' := by
  cases a with
  | newBlock =>
    obtain rfl := Option.some.inj h
    exact .aside ⟨rfl, rfl, rfl⟩ rfl trivial
  | findLatestBlock fails =>
    rw [indexerStep] at h
    split at h
    · split at h
      · obtain rfl := Option.some.inj h
        exact .aside ⟨rfl, rfl, rfl⟩ rfl trivial
      · obtain rfl := Option.some.inj h
        exact .aside ⟨rfl, rfl, rfl⟩ rfl trivial
    · cases h
  | block fails =>
    rw [indexerStep] at h
    split at h
    · obtain rfl := Option.some.inj h
      exact .aside ⟨rfl, rfl, rfl⟩ rfl trivial
    · cases h
  | handOver =>
    rw [indexerStep] at h
    split at h
    · rename_i gap _
      split at h
      · rename_i hready
        obtain rfl := Option.some.inj h
        exact .received gap ⟨rfl, rfl, rfl⟩ hready.1 rfl trivial
      · obtain rfl := Option.some.inj h
        exact .aside ⟨rfl, rfl, rfl⟩ rfl trivial
    · cases h
  | consumeHistoricalBlock fails =>
    rw [indexerStep] at h
    split at h
    · rename_i i gap entry hp
      have horderly : Orderly x (.consumeHistoricalBlock fails) =
          if x.done = false ∧ fails = false ∧ i ≤ gap.endHeight then
            entry = .received → gap.start = x.storedHeight + 1
          else entry ≠ .missed := by
        simp only [Orderly, hp, Processor.Orderly]
      split at h
      · rename_i hlast
        rw [if_neg fun hc => hlast.not_ge hc.2.2] at horderly
        obtain rfl := Option.some.inj h
        exact .ended i gap entry ⟨rfl, rfl, rfl⟩ hp trivial (by rw [horderly])
      · rename_i hnext
        split at h
        · rename_i hdone
          rw [if_neg (by simp [hdone])] at horderly
          obtain rfl := Option.some.inj h
          exact .ended i gap entry ⟨rfl, rfl, rfl⟩ hp trivial (by rw [horderly])
        · rename_i hopen
          split at h
          · rename_i hfails
            rw [if_neg (by simp [hfails])] at horderly
            obtain rfl := Option.some.inj h
            exact .ended i gap entry ⟨rfl, rfl, rfl⟩ hp trivial (by rw [horderly])
          · rename_i hfound
            rw [if_pos ⟨by simpa using hopen, by simpa using hfound, not_lt.mp hnext⟩] at horderly
            obtain ⟨tables, ht, rfl⟩ := Option.map_eq_some_iff.mp h
            exact .consumed i gap entry hp rfl rfl rfl ht (by rw [horderly])
    · cases h
  | insertBlock result statusFails =>
    rw [indexerStep] at h
    split at h
    · rename_i i gap hp
      obtain rfl := Option.some.inj h
      exact .inserted i gap result hp rfl rfl rfl rfl trivial
    · cases h
  | close =>
    obtain rfl := Option.some.inj h
    exact .aside ⟨rfl, rfl, rfl⟩ rfl trivial
  | stop =>
    rw [indexerStep] at h
    split at h
    · rename_i hp
      split at h
      · obtain rfl := Option.some.inj h
        exact .stopped ⟨rfl, rfl, rfl⟩ hp rfl trivial
      · cases h
    · cases h

/-! ## Once and in order -/

/-- The heights of the first `n` blocks. -/
def heights (n : ℕ) : List ℤ := (List.range n).map fun k : ℕ => (k : ℤ) + 1

theorem heights_succ (n : ℕ) : heights (n + 1) = heights n ++ [(n : ℤ) + 1] := by
  rw [heights, List.range_succ, List.map_append]
  rfl

theorem length_heights (n : ℕ) : (heights n).length = n := by
  rw [heights, List.length_map, List.length_range]

namespace Indexer

/-- The height of the last block that was applied, zero if there is none. -/
def appliedHeight (x : Indexer) : ℤ := x.applied.getLast?.getD 0

/-- The blocks up to some height were applied, each once and one after the other, and that
height is the one that is stored, unless a gap is being filled. -/
structure Synced (x : Indexer) : Prop where
  inOrder : x.applied = heights x.applied.length
  stored : x.processor.Idle → x.storedHeight = x.appliedHeight

/-- Where the loop stands, between the blocks that are applied and the height that is
stored. -/
def Tracks (x : Indexer) : Prop :=
  match x.processor with
  | .waiting | .stopped => True
  | .filling i gap .received => i = gap.start ∧ x.storedHeight = x.applied.length
  | .filling i _ .stored => x.applied.length = i - 1 ∧ x.storedHeight = i - 1
  | .filling i _ .missed => x.applied.length = i - 1 ∧ x.storedHeight < i - 1
  | .consumed i _ => x.applied.length = i ∧ x.storedHeight < i

/-- The last applied block is as high as there are blocks. -/
theorem appliedHeight_eq (h : x.applied = heights x.applied.length) :
    x.appliedHeight = x.applied.length := by
  unfold appliedHeight
  rw [h]
  cases x.applied.length with
  | zero => rfl
  | succ n =>
    rw [heights_succ, List.getLast?_concat, Option.getD_some, List.length_append, length_heights]
    rfl

/-- The next block is in order if it is one higher. -/
theorem inOrder_append_iff (h : x.applied = heights x.applied.length) (i : ℤ) :
    x.applied ++ [i] = heights (x.applied ++ [i]).length ↔ i = x.applied.length + 1 := by
  rw [List.length_append, List.length_singleton, heights_succ, ← h]
  constructor
  · intro heq
    exact List.singleton_inj.mp (List.append_cancel_left heq)
  · intro hi
    rw [hi]

theorem Synced.appliedHeight (h : x.Synced) : x.appliedHeight = x.applied.length :=
  appliedHeight_eq h.inOrder

end Indexer

open Indexer

/-- Where only the processor moves, the order of the blocks stays. -/
theorem Kept.synced_iff (hk : Kept x x') (h : x.Synced) :
    x'.Synced ↔ (x'.processor.Idle → x.storedHeight = x.applied.length) := by
  have hheight : x'.storedHeight = x.storedHeight := congrArg (·.getD 0) hk.latest
  have hlast : x'.appliedHeight = x.applied.length := by
    rw [← h.appliedHeight]
    exact congrArg (fun l : List ℤ => l.getLast?.getD 0) hk.applied
  constructor
  · intro h' hidle
    rw [← hheight, ← hlast]
    exact h'.stored hidle
  · intro hstored
    refine ⟨?_, fun hidle => ?_⟩
    · rw [hk.applied]
      exact h.inOrder
    · rw [hheight, hlast]
      exact hstored hidle

/-- **One step.** -/
theorem step_synced_iff (h : x.Synced) (ht : x.Tracks) (hstep : indexerStep b events x a = some x') :
    Orderly x a ↔ x'.Synced := by
  have hlast := h.appliedHeight
  cases indexerStep_moves hstep with
  | aside hk hp hs =>
    rw [hk.synced_iff h, hp, ← hlast]
    exact ⟨fun _ => h.stored, fun _ => hs⟩
  | received gap hk hp hp' hs =>
    rw [hk.synced_iff h, hp']
    exact ⟨fun _ => nofun, fun _ => hs⟩
  | stopped hk hp hp' hs =>
    rw [hk.synced_iff h, ← hlast]
    refine ⟨fun _ _ => h.stored ?_, fun _ => hs⟩
    rw [hp]
    trivial
  | ended i gap entry hk hp hp' hs =>
    rw [hk.synced_iff h, hs]
    unfold Indexer.Tracks at ht
    rw [hp] at ht
    cases entry with
    | received => exact ⟨fun _ _ => ht.2, fun _ => nofun⟩
    | stored => exact ⟨fun _ _ => ht.2.trans ht.1.symm, fun _ => nofun⟩
    | missed =>
      obtain ⟨hlen, hlt⟩ := ht
      constructor
      · intro hne
        exact absurd rfl hne
      · intro heq
        have := heq hp'
        omega
  | consumed i gap entry hp hp' latest applied tables hs =>
    have hsynced : x'.Synced ↔ i = x.applied.length + 1 := by
      rw [← inOrder_append_iff h.inOrder i, ← applied]
      refine ⟨Synced.inOrder, fun ho => ⟨ho, ?_⟩⟩
      rw [hp']
      exact nofun
    rw [hsynced, hs]
    unfold Indexer.Tracks at ht
    rw [hp] at ht
    cases entry with
    | received =>
      obtain ⟨hi, hstored⟩ := ht
      constructor
      · intro hstart
        have := hstart rfl
        omega
      · intro hnext _
        omega
    | stored | missed =>
      obtain ⟨hlen, -⟩ := ht
      exact ⟨fun _ => by omega, fun _ => nofun⟩
  | inserted i gap result hp hp' latest applied tables hs =>
    refine ⟨fun _ => ⟨?_, ?_⟩, fun _ => hs⟩
    · rw [applied]
      exact h.inOrder
    · rw [hp']
      exact nofun

/-- The loop keeps its place as long as the blocks come in order. -/
theorem step_tracks (h : x.Synced) (ht : x.Tracks) (hstep : indexerStep b events x a = some x')
    (h' : x'.Synced) : x'.Tracks := by
  cases indexerStep_moves hstep with
  | aside hk hp hs =>
    unfold Indexer.Tracks Indexer.storedHeight at ht ⊢
    rw [hp, hk.latest, hk.applied]
    exact ht
  | received gap hk hp hp' hs =>
    have hidle : x.processor.Idle := by
      rw [hp]
      trivial
    have hstored := (h.stored hidle).trans h.appliedHeight
    unfold Indexer.Tracks Indexer.storedHeight at *
    rw [hp', hk.latest, hk.applied]
    exact ⟨rfl, hstored⟩
  | stopped hk hp hp' hs =>
    unfold Indexer.Tracks
    rw [hp']
    trivial
  | ended i gap entry hk hp hp' hs =>
    unfold Indexer.Tracks
    split
    · trivial
    · trivial
    all_goals
      rename_i heq
      rw [heq] at hp'
      exact hp'.elim
  | consumed i gap entry hp hp' latest applied tables hs =>
    have hheight : x'.storedHeight = x.storedHeight := congrArg (·.getD 0) latest
    have hnext : i = x.applied.length + 1 := by
      rw [← inOrder_append_iff h.inOrder i, ← applied]
      exact h'.inOrder
    have hlength : (x'.applied.length : ℤ) = x.applied.length + 1 := by
      rw [applied, List.length_append, List.length_singleton]
      rfl
    unfold Indexer.Tracks at ht ⊢
    rw [hp] at ht
    rw [hp', hheight, hlength]
    refine ⟨hnext.symm, ?_⟩
    cases entry with
    | received | stored | missed => omega
  | inserted i gap result hp hp' latest applied tables hs =>
    unfold Indexer.Tracks at ht ⊢
    rw [hp] at ht
    rw [hp', applied]
    obtain ⟨hlen, hlt⟩ := ht
    cases result with
    | ok | unacknowledged =>
      have hheight : x'.storedHeight = i := congrArg (·.getD 0) latest
      show (x.applied.length : ℤ) = i + 1 - 1 ∧ x'.storedHeight = i + 1 - 1
      omega
    | failed =>
      have hheight : x'.storedHeight = x.storedHeight := congrArg (·.getD 0) latest
      show (x.applied.length : ℤ) = i + 1 - 1 ∧ x'.storedHeight < i + 1 - 1
      omega

/-! ## Runs -/

/-- The service with an empty database, on a chain of some height. -/
def Indexer.start (height : ℤ) : Indexer where
  chainHeight := height

theorem start_synced (height : ℤ) : (Indexer.start height).Synced := ⟨rfl, fun _ => rfl⟩

/-- The condition on the steps that can be taken. -/
def KeepsOrder (b : Bech32 cr) (events : ℤ → List (Int64 × Event)) (x : Indexer)
    (a : IndexerAction) : Prop :=
  ∀ x', indexerStep b events x a = some x' → Orderly x a

instance (b : Bech32 cr) (events : ℤ → List (Int64 × Event)) (x : Indexer)
    (a : IndexerAction) : Decidable (KeepsOrder b events x a) :=
  match hs : indexerStep b events x a with
  | none => isTrue fun x' h => by rw [hs] at h; cases h
  | some x' => decidable_of_iff (Orderly x a) ⟨fun h _ _ => h, fun h => h x' hs⟩

/-- **When every block is applied once and in order.**  A run from an empty database meets the
condition at every step if and only if in every state it passes the applied blocks are the
first ones of the chain, each once and in order, and the last of them is the one whose height
is stored unless a gap is being filled. -/
theorem applied_in_order_iff (b : Bech32 cr) (events : ℤ → List (Int64 × Event))
    (height : ℤ) (actions : List IndexerAction) :
    Runs.Guarded (indexerStep b events) (KeepsOrder b events) (Indexer.start height) actions ↔
      ∀ l₁ l₂ x, actions = l₁ ++ l₂ →
        Runs.run (indexerStep b events) (Indexer.start height) l₁ = some x → x.Synced := by
  refine Runs.guarded_iff_forall_of_inductive (Q := fun x => x.Synced ∧ x.Tracks) ?_ ?_ ?_ ?_
    ⟨start_synced height, trivial⟩
  · intro x a hnone x' hsome
    rw [hnone] at hsome
    cases hsome
  · rintro x a x' ⟨h, ht⟩ hstep
    rw [← step_synced_iff h ht hstep]
    exact ⟨fun hk => hk x' hstep, fun hs _ _ => hs⟩
  · rintro x a x' ⟨h, ht⟩ hstep h'
    exact ⟨h', step_tracks h ht hstep h'⟩
  · exact fun _ h => h.1

/-- **The tables** are what the events of the applied blocks make of an empty database. -/
theorem tables_applied {height : ℤ} {actions : List IndexerAction}
    (hrun : Runs.run (indexerStep b events) (Indexer.start height) actions = some x) :
    Database.consume b {} (x.applied.flatMap events) = some x.tables := by
  refine Runs.run_induct (P := fun x => Database.consume b {} (x.applied.flatMap events) =
    some x.tables) ?_ rfl hrun
  intro x a x' h hstep
  cases indexerStep_moves hstep with
  | aside hk | received _ hk | ended _ _ _ hk | stopped hk =>
    rw [hk.applied, hk.tables]
    exact h
  | consumed i gap entry hp hp' latest applied tables hs =>
    rw [applied, List.flatMap_append, List.flatMap_singleton]
    exact Runs.run_append.mpr ⟨x.tables, h, tables⟩
  | inserted i gap result hp hp' latest applied tables hs =>
    rw [applied, tables]
    exact h

namespace Sample

/-- `gapFiller` without a failure. -/
def fillGaps : List IndexerAction := [.findLatestBlock false, .block false, .handOver]

/-- A block is consumed, and the write of its height comes to `result`. -/
def blockTo (result : InsertBlock) : List IndexerAction :=
  [.consumeHistoricalBlock false, .insertBlock result false]

/-- The end of a gap. -/
def gapEnd : List IndexerAction := [.consumeHistoricalBlock false]

end Sample

/-- A write that fails does no harm before the last block of a gap. -/
theorem failed_write_made_good : ∃ x, Runs.run (indexerStep Sample.bech32 fun _ => []) (Indexer.start 2)
      (Sample.fillGaps ++ Sample.blockTo .failed ++ Sample.blockTo .ok ++ Sample.gapEnd) = some x ∧
    x.applied = [1, 2] ∧ x.Synced := by
  have h : Runs.Guarded (indexerStep Sample.bech32 fun _ => []) (KeepsOrder Sample.bech32 fun _ => []) (Indexer.start 2)
        (Sample.fillGaps ++ Sample.blockTo .failed ++ Sample.blockTo .ok ++ Sample.gapEnd) ∧
      (Runs.run (indexerStep Sample.bech32 fun _ => []) (Indexer.start 2)
        (Sample.fillGaps ++ Sample.blockTo .failed ++ Sample.blockTo .ok ++ Sample.gapEnd)).map
          Indexer.applied = some [1, 2] := by decide
  obtain ⟨x, hx, happlied⟩ := Option.map_eq_some_iff.mp h.2
  have hall := (applied_in_order_iff Sample.bech32 (fun _ => []) 2 _).mp h.1
  exact ⟨x, hx, happlied, hall _ [] x (List.append_nil _).symm hx⟩

/-- A block that is applied twice is out of order. -/
theorem not_synced_of_twice (h : x.applied = [1, 1]) : ¬x.Synced := by
  intro hs
  have horder := hs.inOrder
  rw [h] at horder
  exact absurd horder (by decide)

/-- **A block is applied twice.**  The write of its height fails at the end of a gap, so that
the stored height stays behind and the next gap starts with the same block.  Or nothing
fails, but the stored height is read before that write, and the gap made of it is handed
over after. -/
theorem block_applied_twice :
    (∃ x, Runs.run (indexerStep Sample.bech32 fun _ => []) (Indexer.start 1)
        (Sample.fillGaps ++ Sample.blockTo .failed ++ Sample.gapEnd) = some x ∧
      x.processor = .waiting ∧ x.appliedHeight = 1 ∧ x.storedHeight = 0 ∧ ¬x.Synced) ∧
    (∃ x, Runs.run (indexerStep Sample.bech32 fun _ => []) (Indexer.start 1)
        (Sample.fillGaps ++ Sample.blockTo .failed ++ Sample.gapEnd ++ Sample.fillGaps ++
          Sample.blockTo .ok) = some x ∧ x.applied = [1, 1] ∧ ¬x.Synced) ∧
    ∃ x, Runs.run (indexerStep Sample.bech32 fun _ => []) (Indexer.start 1)
        (Sample.fillGaps ++ [.findLatestBlock false] ++ Sample.blockTo .ok ++ Sample.gapEnd ++
          [.block false, .handOver] ++ Sample.blockTo .ok) = some x ∧
      x.applied = [1, 1] ∧ ¬x.Synced := by
  refine ⟨?_, ?_, ?_⟩
  · have h : (Runs.run (indexerStep Sample.bech32 fun _ => []) (Indexer.start 1)
        (Sample.fillGaps ++ Sample.blockTo .failed ++ Sample.gapEnd)).map
          (fun x => (x.processor, x.appliedHeight, x.storedHeight)) = some (.waiting, 1, 0) := by
      decide
    obtain ⟨x, hx, hread⟩ := Option.map_eq_some_iff.mp h
    simp only [Prod.mk.injEq] at hread
    obtain ⟨hp, happlied, hstored⟩ := hread
    refine ⟨x, hx, hp, happlied, hstored, fun hs => ?_⟩
    have hsame := hs.stored (by rw [hp]; trivial)
    rw [happlied, hstored] at hsame
    cases hsame
  · have h : (Runs.run (indexerStep Sample.bech32 fun _ => []) (Indexer.start 1)
        (Sample.fillGaps ++ Sample.blockTo .failed ++ Sample.gapEnd ++ Sample.fillGaps ++
          Sample.blockTo .ok)).map Indexer.applied = some [1, 1] := by decide
    obtain ⟨x, hx, happlied⟩ := Option.map_eq_some_iff.mp h
    exact ⟨x, hx, happlied, not_synced_of_twice happlied⟩
  · have h : (Runs.run (indexerStep Sample.bech32 fun _ => []) (Indexer.start 1)
        (Sample.fillGaps ++ [.findLatestBlock false] ++ Sample.blockTo .ok ++ Sample.gapEnd ++
          [.block false, .handOver] ++ Sample.blockTo .ok)).map Indexer.applied =
        some [1, 1] := by decide
    obtain ⟨x, hx, happlied⟩ := Option.map_eq_some_iff.mp h
    exact ⟨x, hx, happlied, not_synced_of_twice happlied⟩

end Arkeo.Directory
