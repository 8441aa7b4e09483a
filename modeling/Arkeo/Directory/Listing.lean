import Arkeo.Directory.Contracts

/-! # The open contracts of the directory

`open_contracts_v` selects the rows whose `settlement_height` is empty and whose duration is
not over at the height of the indexer.  The chain calls a contract open until it is finally
settled and its last block has passed.  A row that the view selects is of an open contract;
an open contract is missing from the view as soon as a claim or a close has written into
`settlement_height`, and in its last block.
-/
namespace Arkeo.Directory
open Exec

variable {cr : Crypto} {w₀ w w' : World} {db : Database} {k : ℕ} {c : Contract} {row : ContractRow}

theorem mem_openContractsV {height : Int64} : k ∈ openContractsV db height ↔
    ∃ row, db.contracts.lookup k = some row ∧ row.settlementHeight = 0 ∧
      height.toInt < row.height + row.duration := by
  unfold openContractsV
  simp only [List.mem_map, List.mem_filter, Bool.and_eq_true, decide_eq_true_eq]
  constructor
  · rintro ⟨⟨j, row⟩, ⟨hmem, h0, hlt⟩, rfl⟩
    exact ⟨row, AList.mem_entries.mp hmem, h0, hlt⟩
  · rintro ⟨row, hrow, h0, hlt⟩
    exact ⟨⟨k, row⟩, ⟨AList.mem_entries.mpr hrow, h0, hlt⟩, rfl⟩

/-- When every event is handled without an error, the directory mirrors the chain. -/
theorem followed_handled (b : Bech32 cr) (hg : Genesis w₀) {actions : List Action}
    (hrun : Runs.run (step cr) w₀ actions = some w) :
    Inv cr w.ctx w.chain ∧ Followed (Database.handle b) (Genuine cr) Mirror w.chain := by
  have hall : Inv cr w.ctx w.chain ∧ Booked cr w.chain ∧
      Followed (Database.handle b) (Genuine cr) Mirror w.chain := by
    refine Runs.run_induct (P := fun v => Inv cr v.ctx v.chain ∧ Booked cr v.chain ∧
      Followed (Database.handle b) (Genuine cr) Mirror v.chain) ?_
      ⟨hg.inv, hg.booked, followed_genesis _ _ hg⟩ hrun
    rintro v a v' ⟨hi, hb, hf⟩ hstep
    have ho := step_outcome hi hstep
    refine ⟨ho.inv hi, ho.booked hi hb, followed_step (fun _ _ _ => heard_handle) ho hi hb ?_ hf⟩
    intro db db' c _ _ _ hok hev
    obtain ⟨e, he, hw⟩ := handle_some.mp hev
    obtain ⟨auth, rfl⟩ := (decoded_altered hok he).openContract
    exact ⟨auth, record_of_write hw, (open_write hw).1⟩
  exact ⟨hall.1, hall.2.2⟩

/-- The view selects the contracts that are open at the height. -/
def OpenContractsListed (db : Database) (s : ChainState) (height : Int64) : Prop :=
  ∀ k, k ∈ openContractsV db height ↔
    ∃ c, s.contracts.lookup k = some c ∧ c.isOpen height = true

/-- Every open contract has blocks left, and no event has settled or closed it, not even in
part. -/
def OpenUntouched (s : ChainState) (height : Int64) : Prop :=
  ∀ k c, s.contracts.lookup k = some c → c.isOpen height = true →
    height.toInt < c.endHeight ∧ ∀ x ∈ s.events, Event.ends? x.2 ≠ some k

/-- The view selects a contract while it has blocks left and is untouched. -/
theorem Tracks.listed_iff (h : Tracks db w.chain k c row)
    (hrow : db.contracts.lookup k = some row) (height : Int64) :
    k ∈ openContractsV db height ↔
      height.toInt < c.endHeight ∧ ∀ x ∈ w.chain.events, Event.ends? x.2 ≠ some k := by
  rw [mem_openContractsV, ← h.untouched]
  have hend : row.height + row.duration = c.endHeight := by
    rw [h.height, h.duration]
    rfl
  constructor
  · rintro ⟨row', hrow', h0, hlt⟩
    obtain rfl : row = row' := Option.some.inj (hrow.symm.trans hrow')
    exact ⟨by rw [← hend]; exact hlt, h0⟩
  · rintro ⟨hlt, h0⟩
    exact ⟨row, hrow, h0, by rw [hend]; exact hlt⟩

/-- **When the view shows the open contracts**, at the end of any block, when every event up to
then has been handled without an error. -/
theorem open_contracts_listed (b : Bech32 cr) (hg : Genesis w₀) {actions : List Action}
    (hrun : Runs.run (step cr) w₀ actions = some w) (hend : step cr w .endBlock = some w')
    (hdb : Runs.run (Database.handle b) {} w'.chain.events = some db) :
    OpenContractsListed db w'.chain w.ctx.blockHeight ↔
      OpenUntouched w'.chain w.ctx.blockHeight := by
  have hrun' : Runs.run (step cr) w₀ (actions ++ [.endBlock]) = some w' :=
    Runs.run_append.mpr ⟨w, hrun, Runs.run_cons.mpr ⟨w', hend, rfl⟩⟩
  obtain ⟨hi, hf⟩ := followed_handled b hg hrun'
  have hm := hf (reachable_vouched hg hrun').events db hdb
  constructor
  · intro hlist k c hc hopen
    obtain ⟨row, hrow, ht⟩ := hm.rows k c hc
    exact (ht.listed_iff hrow _).mp ((hlist k).mpr ⟨c, hc, hopen⟩)
  · intro hopen k
    constructor
    · intro hk
      obtain ⟨row, hrow, h0, -⟩ := mem_openContractsV.mp hk
      obtain ⟨c, hc⟩ := hm.only k row hrow
      obtain ⟨row', hrow', ht⟩ := hm.rows k c hc
      obtain rfl : row = row' := Option.some.inj (hrow.symm.trans hrow')
      have hlt := ((ht.listed_iff hrow _).mp hk).1
      have hs : c.settlementHeight = 0 := by
        by_contra hne
        exact ht.settled hne h0
      refine ⟨c, hc, (hi.stored k c hc).wf.isOpen_iff.mpr ⟨hlt.le, .inl ?_⟩⟩
      rw [hs]
      rfl
    · rintro ⟨c, hc, ho⟩
      obtain ⟨row, hrow, ht⟩ := hm.rows k c hc
      exact (ht.listed_iff hrow _).mpr (hopen k c hc ho)

namespace Sample
open Arkeo.Sample

/-- The contracts that the view selects at the end of the block a run stands in, whether the
chain has a contract open then, and whether the events are intact. -/
def shown (actions : List Action) (k : ℕ) : Option (Bool × Bool × Bool) :=
  (Runs.run (step crypto) genesis actions).bind fun w =>
    (step crypto w .endBlock).bind fun w' =>
      (Runs.run Database.writeMessage {} w'.chain.events).bind fun db =>
        (w'.chain.contracts.lookup k).map fun c =>
          (decide (∀ x ∈ w'.chain.events, Fits x.2 ∧ Intact x.2),
            decide (k ∈ openContractsV db w.ctx.blockHeight), c.isOpen w.ctx.blockHeight)

theorem of_shown {actions : List Action} {k : ℕ} {b b' : Bool}
    (h : shown actions k = some (true, b, b')) :
    ∃ w w' db c, Runs.run (step crypto) genesis actions = some w ∧
      step crypto w .endBlock = some w' ∧
      Runs.run (Database.handle bech32) {} w'.chain.events = some db ∧
      w'.chain.contracts.lookup k = some c ∧
      decide (k ∈ openContractsV db w.ctx.blockHeight) = b ∧ c.isOpen w.ctx.blockHeight = b' := by
  obtain ⟨w, hw, h⟩ := Option.bind_eq_some_iff.mp h
  obtain ⟨w', hw', h⟩ := Option.bind_eq_some_iff.mp h
  obtain ⟨db, hdb, h⟩ := Option.bind_eq_some_iff.mp h
  obtain ⟨c, hc, h⟩ := Option.map_eq_some_iff.mp h
  simp only [Prod.mk.injEq] at h
  have hrun : Runs.run (step crypto) genesis (actions ++ [.endBlock]) = some w' :=
    Runs.run_append.mpr ⟨w, hw, Runs.run_cons.mpr ⟨w', hw', rfl⟩⟩
  rw [← handle_of_intact bech32 (reachable_intact genesis_ok hrun (of_decide_eq_true h.1))] at hdb
  exact ⟨w, w', db, c, hw, hw', hdb, hc, h.2.1, h.2.2⟩

/-- A contract in its first block. -/
theorem new_contract_listed : ∃ w w' db,
    Runs.run (step crypto) genesis (setup ++ [.msg (.openContract (openMsg .payAsYouGo 100))]) =
      some w ∧ step crypto w .endBlock = some w' ∧
    Runs.run (Database.handle bech32) {} w'.chain.events = some db ∧
    1 ∈ openContractsV db w.ctx.blockHeight ∧
    (OpenContractsListed db w'.chain w.ctx.blockHeight ↔
      OpenUntouched w'.chain w.ctx.blockHeight) := by
  have h : shown (setup ++ [.msg (.openContract (openMsg .payAsYouGo 100))]) 1 =
      some (true, true, true) := by
    rw [shown, Runs.run_append_of setup_run]
    decide +kernel
  obtain ⟨w, w', db, c, hw, hw', hdb, -, hv, -⟩ := of_shown h
  exact ⟨w, w', db, hw, hw', hdb, of_decide_eq_true hv,
    open_contracts_listed bech32 genesis_ok hw hw' hdb⟩

/-- A contract on which three calls were claimed is open, and the view does not show it. -/
theorem claimed_unlisted : ∃ w w' db, Runs.run (step crypto) genesis claimed = some w ∧
    step crypto w .endBlock = some w' ∧
    Runs.run (Database.handle bech32) {} w'.chain.events = some db ∧
    ¬OpenContractsListed db w'.chain w.ctx.blockHeight := by
  have h : shown claimed 2 = some (true, false, true) := by
    rw [shown, claimed_run]
    decide +kernel
  obtain ⟨w, w', db, c, hw, hw', hdb, hc, hv, ho⟩ := of_shown h
  refine ⟨w, w', db, hw, hw', hdb, ?_⟩
  intro hlist
  exact of_decide_eq_false hv ((hlist 2).mpr ⟨c, hc, ho⟩)

end Sample

end Arkeo.Directory
