import Arkeo.Directory.Contracts
import Arkeo.EventNames

/-! # Indexing a block twice

The indexer takes up a block again when it stops before the block is marked as done.  On the
row of a contract, an opening, a close and a settlement that pays nothing overwrite columns
(`ContractRow.touch`), so that replaying a block of such events gives the row it has
(`replay_harmless`).  A settlement that pays adds its amounts, and a replay adds them again.
-/
namespace Arkeo.Directory
open Exec

variable {cr : Crypto} {ctx : Context} {s s' : ChainState} {w w' : World} {a : Action}
  {db db' : Database} {x : Int64 × Event} {evs es : List (Int64 × Event)} {k : ℕ}
  {row : ContractRow}

/-! ## Overwriting a row -/

/-- What an event makes of the row of contract `k`, when it pays nothing. -/
def ContractRow.touch (k : ℕ) (row : ContractRow) : Int64 × Event → ContractRow
  | (_, .openContract e) =>
      if e.contractId = k then (openedRow row.providerId e).keeping row else row
  | (t, .closeContract j _ _ _ _) =>
      if j = k then { row with settlementHeight := t.toInt } else row
  | (t, .settleContract e) =>
      if e.contractId = k then
        { row with nonce := e.nonce.toInt, settlementHeight := t.toInt }
      else row
  | _ => row

/-- An event about another contract, or about none, leaves the row alone. -/
theorem ContractRow.touch_of_ne (row : ContractRow) (h : x.2.contractId? ≠ some k) :
    row.touch k x = row := by
  obtain ⟨t, e⟩ := x
  cases e with
  | openContract e => exact if_neg fun hk => h (congrArg some hk)
  | closeContract j _ _ _ _ => exact if_neg fun hk => h (congrArg some hk)
  | settleContract e => exact if_neg fun hk => h (congrArg some hk)
  | _ => rfl

theorem ContractRow.touch_idem (k : ℕ) (row : ContractRow) (x : Int64 × Event) :
    (row.touch k x).touch k x = row.touch k x := by
  obtain ⟨t, e⟩ := x
  cases e with
  | openContract e =>
    simp only [touch]
    split <;> rfl
  | closeContract j _ _ _ _ =>
    simp only [touch]
    split <;> rfl
  | settleContract e =>
    simp only [touch]
    split <;> rfl
  | _ => rfl

/-- What an event leaves of a row is what the row had: rows that agree after it agree after it
also when another event came before. -/
theorem ContractRow.touch_congr (k : ℕ) (r r' : ContractRow) (x y : Int64 × Event)
    (h : r.touch k x = r'.touch k x) : (r.touch k y).touch k x = (r'.touch k y).touch k x := by
  obtain ⟨t, e⟩ := x
  obtain ⟨u, d⟩ := y
  cases e <;> cases d <;>
    simp only [touch, openedRow, keeping] at h ⊢ <;> grind

/-! ## Sound tables -/

/-- Every row stands where an opening among the events has put it, no two share a place, and
the amounts are within their columns. -/
structure Sound (evs : List (Int64 × Event)) (db : Database) : Prop where
  opened : ∀ k row, db.contracts.lookup k = some row → ∃ t e,
    (t, Event.openContract e) ∈ evs ∧ e.contractId = k ∧
      (∃ p, db.providers.lookup (e.provider, e.service) = some p ∧ p.id = row.providerId) ∧
      (openedRow row.providerId e).valid = true ∧
      row.slot = (openedRow row.providerId e).slot
  slots : ∀ j k row row', db.contracts.lookup j = some row → db.contracts.lookup k = some row' →
    row.slot = row'.slot → j = k
  fits : ∀ k row, db.contracts.lookup k = some row →
    row.paid < 2 ^ 63 ∧ row.reserveContribAsset < 2 ^ 63

/-- An event writes at most the row of the contract it is about. -/
theorem written?_id {r : ℕ × ContractRow} (h : db.written? x = some r) :
    x.2.contractId? = some r.1 := by
  obtain ⟨t, e⟩ := x
  cases e with
  | openContract e =>
    obtain ⟨row, -, rfl⟩ := Option.map_eq_some_iff.mp h
    rfl
  | closeContract j _ _ _ _ =>
    obtain ⟨row, -, rfl⟩ := Option.map_eq_some_iff.mp h
    rfl
  | settleContract e =>
    obtain ⟨row, -, rfl⟩ := Option.map_eq_some_iff.mp h
    rfl
  | _ => cases h

/-- The row of an opening: of its provider, in a place of its own. -/
theorem opening_some {e : EventOpenContract} (h : db.opening e = some row) :
    ∃ p, db.providers.lookup (e.provider, e.service) = some p ∧
      (openedRow p.id e).valid = true ∧ db.taken e.contractId (openedRow p.id e) = false ∧
      row = match db.contracts.lookup e.contractId with
        | none => openedRow p.id e
        | some old => (openedRow p.id e).keeping old := by
  obtain ⟨p, hp, hif⟩ := Option.bind_eq_some_iff.mp h
  rw [Option.ite_none_right_eq_some, Bool.and_eq_true, Bool.not_eq_true'] at hif
  obtain ⟨⟨hv, ht⟩, hrow⟩ := hif
  exact ⟨p, hp, hv, ht, (Option.some.inj hrow).symm⟩

theorem not_taken {r : ContractRow} (h : db.taken k r = false) {j : ℕ} {row : ContractRow}
    (hrow : db.contracts.lookup j = some row) (hslot : row.slot = r.slot) : j = k := by
  by_contra hne
  have hany := List.any_eq_false.mp h ⟨j, row⟩ (AList.mem_entries.mpr hrow)
  simp [hne, hslot] at hany

/-- The rows after an event, where they were before or where it wrote. -/
theorem lookup_record (h : db.recordMessage x = some db') (k : ℕ) :
    (∃ row, db.written? x = some (k, row) ∧ db'.contracts.lookup k = some row) ∨
      (∀ row, db.written? x ≠ some (k, row)) ∧
        db'.contracts.lookup k = db.contracts.lookup k := by
  obtain ⟨hcon, -⟩ := record_tables h
  cases hw : db.written? x with
  | none =>
    rw [hw] at hcon
    refine .inr ⟨?_, ?_⟩
    · intro row hrow
      cases hrow
    · rw [hcon]
      rfl
  | some r =>
    rw [hw] at hcon
    have hcon' : db'.contracts = db.contracts.insert r.1 r.2 := hcon
    by_cases hk : k = r.1
    · refine .inl ⟨r.2, by rw [hk], ?_⟩
      rw [hcon', hk, AList.lookup_insert]
    · refine .inr ⟨?_, ?_⟩
      · intro row hrow
        exact hk (congrArg Prod.fst (Option.some.inj hrow)).symm
      · rw [hcon', AList.lookup_insert_ne hk]

/-- What an event writes is sound. -/
theorem Sound.written (h : Sound evs db) (hx : x ∈ evs) (hw : db.written? x = some (k, row)) :
    (∃ t e, (t, Event.openContract e) ∈ evs ∧ e.contractId = k ∧
      (∃ p, db.providers.lookup (e.provider, e.service) = some p ∧ p.id = row.providerId) ∧
      (openedRow row.providerId e).valid = true ∧ row.slot = (openedRow row.providerId e).slot) ∧
    (∀ j row', db.contracts.lookup j = some row' → row'.slot = row.slot → j = k) ∧
    row.paid < 2 ^ 63 ∧ row.reserveContribAsset < 2 ^ 63 := by
  obtain ⟨t, e⟩ := x
  cases e with
  | openContract e =>
    obtain ⟨r, hr, heq⟩ := Option.map_eq_some_iff.mp hw
    obtain ⟨rfl, rfl⟩ := Prod.mk.inj heq
    obtain ⟨p, hp, hv, ht, hrow⟩ := opening_some hr
    -- whether or not the row is there, it gets the place of the event
    cases hold : db.contracts.lookup e.contractId with
    | none =>
      rw [hold] at hrow
      subst hrow
      exact ⟨⟨t, e, hx, rfl, ⟨p, hp, rfl⟩, hv, rfl⟩, fun j r' hr' hs => not_taken ht hr' hs,
        show (0 : ℤ) < 2 ^ 63 by decide, show (0 : ℤ) < 2 ^ 63 by decide⟩
    | some old =>
      rw [hold] at hrow
      subst hrow
      exact ⟨⟨t, e, hx, rfl, ⟨p, hp, rfl⟩, hv, rfl⟩, fun j r' hr' hs => not_taken ht hr' hs,
        h.fits _ old hold⟩
  | closeContract j _ _ _ _ =>
    obtain ⟨r, hr, heq⟩ := Option.map_eq_some_iff.mp hw
    obtain ⟨rfl, rfl⟩ := Prod.mk.inj heq
    exact ⟨h.opened j r hr, fun i r' hr' hs => h.slots i j r' r hr' hr hs, h.fits j r hr⟩
  | settleContract e =>
    obtain ⟨r, hr, heq⟩ := Option.map_eq_some_iff.mp hw
    obtain ⟨rfl, rfl⟩ := Prod.mk.inj heq
    obtain ⟨old, hold, hif⟩ := Option.bind_eq_some_iff.mp hr
    rw [Option.ite_none_left_eq_some] at hif
    obtain ⟨hfits, hrow⟩ := hif
    obtain rfl := Option.some.inj hrow
    simp only [ContractRow.overflows, Bool.or_eq_true, decide_eq_true_eq, not_or, not_le] at hfits
    exact ⟨h.opened _ old hold, fun i r' hr' hs => h.slots i _ r' old hr' hold hs, hfits⟩
  | _ => cases hw

/-- **One event** keeps the tables sound. -/
theorem Sound.record (h : Sound evs db) (hx : x ∈ evs) (hrec : db.recordMessage x = some db') :
    Sound evs db' := by
  obtain ⟨-, hreg⟩ := record_tables hrec
  refine ⟨?_, ?_, ?_⟩
  · intro k row hrow
    have hold : ∃ t e, (t, Event.openContract e) ∈ evs ∧ e.contractId = k ∧
        (∃ p, db.providers.lookup (e.provider, e.service) = some p ∧ p.id = row.providerId) ∧
        (openedRow row.providerId e).valid = true ∧
        row.slot = (openedRow row.providerId e).slot := by
      rcases lookup_record hrec k with ⟨r, hw, hr⟩ | ⟨-, hsame⟩
      · obtain rfl : r = row := Option.some.inj (hr.symm.trans hrow)
        exact (h.written hx hw).1
      · exact h.opened k row (hsame.symm.trans hrow)
    obtain ⟨t, e, hmem, hid, ⟨p, hp, hpid⟩, hv, hs⟩ := hold
    obtain ⟨p', hp', hid'⟩ := hreg.kept hp
    exact ⟨t, e, hmem, hid, ⟨p', hp', hid'.trans hpid⟩, hv, hs⟩
  · intro j k row row' hj hk hs
    rcases lookup_record hrec j with ⟨r, hw, hr⟩ | ⟨hwj, hsame⟩
    · obtain rfl : r = row := Option.some.inj (hr.symm.trans hj)
      rcases lookup_record hrec k with ⟨r', hw', -⟩ | ⟨-, hsame'⟩
      · exact congrArg Prod.fst (Option.some.inj (hw.symm.trans hw'))
      · exact ((h.written hx hw).2.1 k row' (hsame'.symm.trans hk) hs.symm).symm
    · rcases lookup_record hrec k with ⟨r', hw', hr'⟩ | ⟨-, hsame'⟩
      · obtain rfl : r' = row' := Option.some.inj (hr'.symm.trans hk)
        exact (h.written hx hw').2.1 j row (hsame.symm.trans hj) hs
      · exact h.slots j k row row' (hsame.symm.trans hj) (hsame'.symm.trans hk) hs
  · intro k row hrow
    rcases lookup_record hrec k with ⟨r, hw, hr⟩ | ⟨-, hsame⟩
    · obtain rfl : r = row := Option.some.inj (hr.symm.trans hrow)
      exact (h.written hx hw).2.2
    · exact h.fits k row (hsame.symm.trans hrow)

theorem sound_empty (evs : List (Int64 × Event)) : Sound evs {} := by
  refine ⟨?_, ?_, ?_⟩
  · intro k row hrow
    cases hrow
  · intro j k row row' hj
    cases hj
  · intro k row hrow
    cases hrow

theorem Sound.recordMessages (h : Sound evs db) (hes : ∀ x ∈ es, x ∈ evs)
    (hrun : db.recordMessages es = some db') : Sound evs db' := by
  induction es generalizing db with
  | nil =>
    obtain rfl := Option.some.inj hrun
    exact h
  | cons x es ih =>
    obtain ⟨hx, hes⟩ := List.forall_mem_cons.mp hes
    obtain ⟨t, ht, hrest⟩ := Runs.run_cons.mp hrun
    exact ih (h.record hx ht) hes hrest

/-! ## One pass over a block -/

/-- No two openings are of one contract. -/
def OpensOnce (evs : List (Int64 × Event)) : Prop :=
  ∀ t t' e e', (t, Event.openContract e) ∈ evs → (t', Event.openContract e') ∈ evs →
    e.contractId = e'.contractId → t = t' ∧ e = e'

/-- The event pays nothing on contract `k`. -/
def FreeOn (k : ℕ) (x : Int64 × Event) : Prop :=
  ∀ e, x.2 = .settleContract e → e.contractId = k → e.paid = 0 ∧ e.reserve = 0

/-- **One event** overwrites a row that is there. -/
theorem Sound.touch (h : Sound evs db) (honce : OpensOnce evs) (hx : x ∈ evs)
    (hrow : db.contracts.lookup k = some row) (hfree : FreeOn k x)
    (hrec : db.recordMessage x = some db') : db'.contracts.lookup k = some (row.touch k x) := by
  -- an event that writes the row writes what it overwrites
  have hwritten : ∀ r, row.touch k x = r → (db.written? x = some (k, r) ∨
      (∀ r', db.written? x ≠ some (k, r')) ∧ r = row) →
      db'.contracts.lookup k = some (row.touch k x) := by
    rintro r rfl hw
    rcases lookup_record hrec k with ⟨r', hw', hr'⟩ | ⟨hnot, hsame⟩
    · rcases hw with hw | ⟨hnot, -⟩
      · obtain rfl := congrArg Prod.snd (Option.some.inj (hw.symm.trans hw'))
        exact hr'
      · exact absurd hw' (hnot r')
    · rcases hw with hw | ⟨-, he⟩
      · exact absurd hw (hnot _)
      · rw [hsame, he]
        exact hrow
  have helse : x.2.contractId? ≠ some k → ∀ r', db.written? x ≠ some (k, r') := by
    intro hne r' hw
    exact hne (written?_id hw)
  obtain ⟨t, e⟩ := x
  cases e with
  | openContract e =>
    by_cases hk : e.contractId = k
    · subst hk
      refine hwritten _ (if_pos rfl) (.inl ?_)
      obtain ⟨t', e', hmem, hid, ⟨p, hp, hpid⟩, hv, hslot⟩ := h.opened _ row hrow
      obtain ⟨-, rfl⟩ := honce t' t e' e hmem hx hid
      have htaken : db.taken e'.contractId (openedRow row.providerId e') = false := by
        refine List.any_eq_false.mpr ?_
        rintro ⟨j, r⟩ hj htaken
        simp only [Bool.and_eq_true, decide_eq_true_eq] at htaken
        exact htaken.1 (h.slots j _ r row (AList.mem_entries.mp hj) hrow
          (htaken.2.trans hslot.symm))
      simp [Database.written?, Database.opening, hp, hv, htaken, hrow, hpid]
    · refine hwritten _ (if_neg hk) (.inr ⟨helse ?_, rfl⟩)
      intro hid
      exact hk (Option.some.inj hid)
  | closeContract j _ _ _ _ =>
    by_cases hk : j = k
    · subst hk
      refine hwritten _ (if_pos rfl) (.inl ?_)
      simp [Database.written?, hrow]
    · refine hwritten _ (if_neg hk) (.inr ⟨helse ?_, rfl⟩)
      intro hid
      exact hk (Option.some.inj hid)
  | settleContract e =>
    by_cases hk : e.contractId = k
    · obtain ⟨hpaid, hres⟩ := hfree e rfl hk
      subst hk
      refine hwritten _ (if_pos rfl) (.inl ?_)
      obtain ⟨h1, h2⟩ := h.fits _ row hrow
      have hfits : row.overflows e = false := by
        refine Bool.or_eq_false_iff.mpr ⟨decide_eq_false ?_, decide_eq_false ?_⟩
        · omega
        · omega
      simp [Database.written?, Database.settling, hrow, hfits, ContractRow.settled, hpaid, hres]
    · refine hwritten _ (if_neg hk) (.inr ⟨helse ?_, rfl⟩)
      intro hid
      exact hk (Option.some.inj hid)
  | _ =>
    refine hwritten row rfl (.inr ⟨?_, rfl⟩)
    intro r' hw
    cases hw

/-- **A row that is there** is overwritten by one event after the other. -/
theorem Sound.foldl_touch (h : Sound evs db) (honce : OpensOnce evs) (hes : ∀ x ∈ es, x ∈ evs)
    (hfree : ∀ x ∈ es, FreeOn k x) (hrow : db.contracts.lookup k = some row)
    (hrun : db.recordMessages es = some db') :
    db'.contracts.lookup k = some (es.foldl (ContractRow.touch k) row) := by
  induction es generalizing db row with
  | nil =>
    obtain rfl := Option.some.inj hrun
    exact hrow
  | cons x es ih =>
    obtain ⟨hx, hes⟩ := List.forall_mem_cons.mp hes
    obtain ⟨hf, hfree⟩ := List.forall_mem_cons.mp hfree
    obtain ⟨d, hd, hrest⟩ := Runs.run_cons.mp hrun
    exact ih (h.record hx hd) hes hfree (h.touch honce hx hrow hf hd) hrest

/-- An event that creates a row is that of its opening, and creates it as the event has it. -/
theorem opened_of_written (hnone : db.contracts.lookup k = none)
    (hrow : db'.contracts.lookup k = some row) (hrec : db.recordMessage x = some db') :
    ∃ e, x.2 = .openContract e ∧ e.contractId = k ∧ row.touch k x = row := by
  rcases lookup_record hrec k with ⟨r, hw, hr⟩ | ⟨-, hsame⟩
  · obtain rfl : r = row := Option.some.inj (hr.symm.trans hrow)
    obtain ⟨t, e⟩ := x
    cases e with
    | openContract e =>
      obtain ⟨r', hr', heq⟩ := Option.map_eq_some_iff.mp hw
      obtain ⟨rfl, rfl⟩ := Prod.mk.inj heq
      obtain ⟨p, -, -, -, he⟩ := opening_some hr'
      rw [hnone] at he
      subst he
      exact ⟨e, rfl, rfl, if_pos rfl⟩
    | closeContract j _ _ _ _ =>
      obtain ⟨r', hr', heq⟩ := Option.map_eq_some_iff.mp hw
      obtain ⟨rfl, -⟩ := Prod.mk.inj heq
      cases hnone.symm.trans hr'
    | settleContract e =>
      obtain ⟨r', hr', heq⟩ := Option.map_eq_some_iff.mp hw
      obtain ⟨rfl, -⟩ := Prod.mk.inj heq
      obtain ⟨old, hold, -⟩ := Option.bind_eq_some_iff.mp hr'
      cases hnone.symm.trans hold
    | _ => cases hw
  · cases (hnone.symm.trans hsame.symm).trans hrow

/-- A row that was not there before was opened by one of the events. -/
theorem opened_of_created (hnone : db.contracts.lookup k = none)
    (hrow : db'.contracts.lookup k = some row) (hrun : db.recordMessages es = some db') :
    ∃ x ∈ es, ∃ e, x.2 = .openContract e ∧ e.contractId = k := by
  induction es generalizing db with
  | nil =>
    obtain rfl := Option.some.inj hrun
    cases hnone.symm.trans hrow
  | cons x es ih =>
    obtain ⟨d, hd, hrest⟩ := Runs.run_cons.mp hrun
    cases hl : d.contracts.lookup k with
    | none =>
      obtain ⟨y, hy, he⟩ := ih hl hrest
      exact ⟨y, List.mem_cons_of_mem _ hy, he⟩
    | some r =>
      obtain ⟨e, he, hid, -⟩ := opened_of_written hnone hl hd
      exact ⟨x, List.mem_cons_self, e, he, hid⟩

/-! ## The order of the events of the chain -/

/-- Nothing is said of a contract before the event of its opening. -/
def FreshOpens (evs : List (Int64 × Event)) : Prop :=
  evs.Pairwise fun x y => ∀ e, y.2 = .openContract e → x.2.contractId? ≠ some e.contractId

/-- The events are not the openings of one contract. -/
def OpensApart (x y : Int64 × Event) : Prop :=
  ∀ e e', x.2 = .openContract e → y.2 = .openContract e' → e.contractId ≠ e'.contractId

theorem FreshOpens.opensOnce (h : FreshOpens evs) : OpensOnce evs := by
  have hpair : evs.Pairwise OpensApart := by
    refine h.imp ?_
    intro x y hxy e e' hx hy hid
    refine hxy e' hy ?_
    rw [hx, ← hid]
    rfl
  have hsymm : Std.Symm OpensApart := by
    refine ⟨?_⟩
    intro x y hxy e e' he he' hid
    exact hxy e' e he' he hid.symm
  intro t t' e e' he he' hid
  by_cases heq : (t, Event.openContract e) = (t', Event.openContract e')
  · cases heq
    exact ⟨rfl, rfl⟩
  · exact absurd hid (hpair.forall he he' heq e e' rfl rfl)

/-- The history a pass over a block leaves: whatever was in the table before, the row of a
contract is what the events of the block made of some row. -/
theorem Sound.exists_foldl (h : Sound evs db) (honce : OpensOnce evs) (hes : ∀ x ∈ es, x ∈ evs)
    (hfresh : FreshOpens es) (hfree : ∀ x ∈ es, FreeOn k x)
    (hrow : db'.contracts.lookup k = some row) (hrun : db.recordMessages es = some db') :
    ∃ r, row = es.foldl (ContractRow.touch k) r := by
  induction es generalizing db with
  | nil => exact ⟨row, rfl⟩
  | cons x es ih =>
    cases hl : db.contracts.lookup k with
    | some r =>
      have hfold := h.foldl_touch honce hes hfree hl hrun
      exact ⟨r, Option.some.inj (hrow.symm.trans hfold)⟩
    | none =>
      obtain ⟨hx, hes'⟩ := List.forall_mem_cons.mp hes
      obtain ⟨-, hfree'⟩ := List.forall_mem_cons.mp hfree
      obtain ⟨hfirst, hfresh'⟩ := List.pairwise_cons.mp hfresh
      obtain ⟨d, hd, hrest⟩ := Runs.run_cons.mp hrun
      have hsd := h.record hx hd
      cases hl' : d.contracts.lookup k with
      | some r =>
        -- the event creates the row
        obtain ⟨e, he, hid, htouch⟩ := opened_of_written hl hl' hd
        have hfold := hsd.foldl_touch honce hes' hfree' hl' hrest
        refine ⟨r, ?_⟩
        rw [List.foldl_cons, htouch]
        exact Option.some.inj (hrow.symm.trans hfold)
      | none =>
        -- a later one does, so that this one is not about the contract
        obtain ⟨y, hy, e, he, hid⟩ := opened_of_created hl' hrow hrest
        obtain ⟨r, hr⟩ := ih hsd hes' hfresh' hfree' hrest
        refine ⟨r, ?_⟩
        rw [List.foldl_cons, ContractRow.touch_of_ne, ← hr]
        rw [← hid]
        exact hfirst y hy e he

/-- Nothing is said of a contract before it is opened, and only of stored ones. -/
structure Ordered (s : ChainState) : Prop where
  fresh : FreshOpens s.events
  stored : ∀ x ∈ s.events, ∀ k, x.2.contractId? = some k → ∃ c, s.contracts.lookup k = some c

theorem Ordered.append (h : Ordered s) (he : s'.events = s.events ++ [x])
    (hx : ∀ e, x.2 = .openContract e → s.contracts.lookup e.contractId = none)
    (hk : ∀ k, x.2.contractId? = some k → ∃ c, s'.contracts.lookup k = some c)
    (hc : ∀ k c, s.contracts.lookup k = some c → ∃ c', s'.contracts.lookup k = some c') :
    Ordered s' := by
  refine ⟨?_, ?_⟩
  · unfold FreshOpens
    rw [he]
    refine List.pairwise_append.mpr ⟨h.fresh, List.pairwise_singleton _ _, ?_⟩
    intro y hy z hz e hze hid
    rw [List.mem_singleton.mp hz] at hze
    obtain ⟨c, hc⟩ := h.stored y hy _ hid
    cases (hx e hze).symm.trans hc
  · intro y hy k hyk
    rw [he] at hy
    rcases List.mem_append.mp hy with hy | hy
    · obtain ⟨c, hyc⟩ := h.stored y hy k hyk
      exact hc k c hyc
    · rw [List.mem_singleton.mp hy] at hyk
      exact hk k hyk

theorem Ordered.congr (h : Ordered s) (hc : s'.contracts = s.contracts)
    (he : s'.events = s.events) : Ordered s' := by
  refine ⟨by rw [he]; exact h.fresh, ?_⟩
  rw [he, hc]
  exact h.stored

theorem Ordered.settle (h : Ordered s) (c : Contract) (isFinal : Bool) :
    Ordered (s.settle cr ctx c isFinal) := by
  have hl := s.settle_lookup cr ctx c isFinal
  refine h.append (s.settle_events cr ctx c isFinal) ?_ ?_ ?_
  · intro e he
    cases he
  · intro k hk
    refine ⟨_, (hl k).trans (if_pos ?_)⟩
    exact (Option.some.inj hk).symm
  · intro k d hd
    rw [hl]
    by_cases hk : k = c.id
    · exact ⟨_, if_pos hk⟩
    · exact ⟨d, by rw [if_neg hk]; exact hd⟩

/-- **One step** of the chain emits its events in order. -/
theorem ordered_step (ho : Outcome cr w a w') (hi : Inv cr w.ctx w.chain) (h : Ordered w.chain) :
    Ordered w'.chain := by
  cases ho with
  | rejected m => exact h
  | unsent src dst coin => exact h
  | provider m s' hdel hm hq hd =>
    obtain ⟨es, hes, hquiet⟩ := hq.events
    have hnone : ∀ x ∈ es, x.2.contractId? = none := by
      intro x hx
      have hxq := hquiet x hx
      cases hx2 : x.2 <;> rw [hx2] at hxq <;> first | rfl | cases hxq
    have hopen : ∀ x ∈ es, ∀ e, x.2 ≠ .openContract e := by
      intro x hx e he
      have := hnone x hx
      rw [he] at this
      cases this
    refine ⟨?_, ?_⟩
    · show FreshOpens s'.events
      rw [hes]
      refine List.pairwise_append.mpr ⟨h.fresh, ?_, ?_⟩
      · refine List.pairwise_of_forall_mem_list ?_
        intro x hx y hy e he
        exact absurd he (hopen y hy e)
      · intro x hx y hy e he
        exact absurd he (hopen y hy e)
    · show ∀ x ∈ s'.events, ∀ k, x.2.contractId? = some k → ∃ c, s'.contracts.lookup k = some c
      rw [hes, hq.contracts]
      intro x hx k hk
      rcases List.mem_append.mp hx with hx | hx
      · exact h.stored x hx k hk
      · rw [hnone x hx] at hk
        cases hk
  | opened msg signer service c hsvc hv hc ho =>
    have hl := w.chain.opened_lookup w.ctx c signer
    have hnone : w.chain.contracts.lookup c.id = none := by
      rw [ho.id_eq]
      exact hi.lookup_next
    refine h.append (w.chain.opened_events w.ctx c signer) ?_ ?_ ?_
    · rintro e ⟨⟩
      exact hnone
    · intro k hk
      exact ⟨c, (hl k).trans (if_pos (Option.some.inj hk).symm)⟩
    · intro k d hd
      refine ⟨d, (hl k).trans ?_⟩
      rw [if_neg ?_]
      · exact hd
      · rintro rfl
        cases hnone.symm.trans hd
  | closed msg c t hd hc hid hopen hby hs ht =>
    have hrel : Ordered (w.chain.relisted w.ctx c) := by
      refine h.congr (ChainState.relisted_contracts c) ?_
      unfold ChainState.relisted
      split <;> rfl
    have hset : Ordered t := by
      rw [ht]
      exact hrel.settle c c.isSubscription
    refine hset.append rfl nofun ?_ fun k d hd => ⟨d, hd⟩
    intro k hk
    obtain rfl := Option.some.inj hk
    refine ⟨c.settled w.ctx c.isSubscription, ?_⟩
    show t.contracts.lookup c.id = _
    rw [ht, ChainState.settle_lookup, if_pos rfl]
  | claimed msg c hc hid hn hset hf => exact h.settle _ false
  | sent src dst coin h0 hle =>
    exact h.congr (ChainState.sent_contracts ..) (ChainState.sent_events ..)
  | ended ctx' hctx =>
    refine ChainState.expireAll_induct ?_ hi h _
    intro t c _ _ _ ht
    exact (ht.settle _ true).congr rfl rfl

theorem ordered_run (hg : Genesis w) {actions : List Action}
    (hrun : Runs.run (step cr) w actions = some w') : Ordered w'.chain := by
  have h0 : Ordered w.chain := by
    refine ⟨?_, ?_⟩
    · unfold FreshOpens
      rw [hg.events]
      exact List.Pairwise.nil
    · rw [hg.events]
      intro x hx
      cases hx
  have hall := Runs.run_induct (P := fun v => Inv cr v.ctx v.chain ∧ Ordered v.chain)
    (fun v a v' hv hstep =>
      have ho := step_outcome hv.1 hstep
      ⟨ho.inv hv.1, ordered_step ho hv.1 hv.2⟩) ⟨hg.inv, h0⟩ hrun
  exact hall.2

/-! ## What the decoder makes of the events -/

section Messages
variable {b : Bech32 cr} {e : Event}

/-- The messages come in the order of the events. -/
theorem FreshOpens.messages (h : FreshOpens es) (hg : ∀ x ∈ es, Genuine cr x.2) :
    FreshOpens (messages b es) := by
  unfold FreshOpens Directory.messages
  rw [List.pairwise_filterMap]
  refine h.imp_of_mem ?_
  rintro ⟨t, d⟩ ⟨t', d'⟩ hx hy hxy m hm m' hm' e he
  obtain ⟨e₁, h₁, rfl⟩ := Option.map_eq_some_iff.mp hm
  obtain ⟨e₂, h₂, rfl⟩ := Option.map_eq_some_iff.mp hm'
  have ha : Altered d e₁ := decoded_altered (hg _ hx) h₁
  have ha' : Altered d' e₂ := decoded_altered (hg _ hy) h₂
  obtain rfl : e₂ = .openContract e := he
  show e₁.contractId? ≠ _
  rw [ha.contractId?]
  cases ha' with
  | same => exact hxy e rfl
  | opening x auth => exact hxy x rfl

/-- A message pays no more than its event. -/
theorem FreeOn.message {x : Int64 × Event} (h : FreeOn k x) (hg : Genuine cr x.2) {t : Int64}
    (he : decoded b x.2 = some e) : FreeOn k (t, e) := by
  obtain ⟨u, d⟩ := x
  intro y hy hid
  have ha : Altered d e := decoded_altered hg he
  cases ha with
  | same => exact h y hy hid
  | bond => cases hy
  | settings => cases hy
  | opening => cases hy

end Messages

/-! ## The replay -/

/-- The events of a block. -/
def blockEvents (s : ChainState) (b : Int64) : List (Int64 × Event) :=
  s.events.filter fun x => x.1 = b

/-- The events of the blocks before it. -/
def eventsBefore (s : ChainState) (b : Int64) : List (Int64 × Event) :=
  s.events.filter fun x => x.1 < b

/-- Every row of contracts is as it was. -/
def RowsKept (db db' : Database) : Prop :=
  ∀ k row, db.contracts.lookup k = some row → db'.contracts.lookup k = some row

/-- **A replay is harmless** when no settlement of the block pays on a contract that has a
row. -/
theorem replay_harmless (bech : Bech32 cr) (hg : Genesis w) {actions : List Action}
    (hrun : Runs.run (step cr) w actions = some w') (b : Int64) {db₀ : Database}
    (h₀ : Database.consume bech {} (eventsBefore w'.chain b) = some db₀)
    (h₁ : db₀.consume bech (blockEvents w'.chain b) = some db)
    (h₂ : db.consume bech (blockEvents w'.chain b) = some db')
    (hfree : ∀ x ∈ blockEvents w'.chain b, ∀ k, (db.contracts.lookup k).isSome → FreeOn k x) :
    RowsKept db db' := by
  rw [consume_eq] at h₀ h₁ h₂
  have hord := ordered_run hg hrun
  have hgenuine := (reachable_vouched hg hrun).events
  have honce := (hord.fresh.messages (b := bech) hgenuine).opensOnce
  have hsub : ∀ p : Int64 × Event → Bool, ∀ x ∈ messages bech (w'.chain.events.filter p),
      x ∈ messages bech w'.chain.events := by
    intro p x hx
    obtain ⟨y, hy, he, ht⟩ := mem_messages.mp hx
    exact mem_messages.mpr ⟨y, (List.mem_filter.mp hy).1, he, ht⟩
  have hs₀ := (sound_empty (messages bech w'.chain.events)).recordMessages (hsub _) h₀
  have hs := hs₀.recordMessages (hsub _) h₁
  have hfresh : FreshOpens (messages bech (blockEvents w'.chain b)) :=
    FreshOpens.messages (hord.fresh.sublist List.filter_sublist)
      fun x hx => hgenuine x (List.mem_filter.mp hx).1
  intro k row hrow
  have hf : ∀ x ∈ messages bech (blockEvents w'.chain b), FreeOn k x := by
    rintro ⟨t, e⟩ hx
    obtain ⟨y, hy, he, -⟩ := mem_messages.mp hx
    exact (hfree y hy k (by rw [hrow]; rfl)).message (hgenuine y (List.mem_filter.mp hy).1) he
  obtain ⟨r, hr⟩ := hs₀.exists_foldl honce (hsub _) hfresh hf hrow h₁
  rw [hs.foldl_touch honce (hsub _) hf hrow h₂, hr]
  rw [Runs.foldl_replay (ContractRow.touch_idem k) (ContractRow.touch_congr k)]

namespace Sample
open Arkeo.Sample

/-- A pass over some of the blocks of a run of the sample chain. -/
theorem consume_of_intact {actions : List Action} {w : World}
    (hw : Runs.run (step crypto) genesis actions = some w)
    (h : ∀ x ∈ w.chain.events, Fits x.2 ∧ Intact x.2) (p : Int64 × Event → Bool)
    (db : Database) :
    db.consume bech32 (w.chain.events.filter p) =
      db.recordMessages (w.chain.events.filter p) :=
  record_of_intact bech32
    (fun x hx => reachable_intact genesis_ok hw h x (List.mem_filter.mp hx).1) db

/-- The first block, with a bond, settings and an opening. -/
theorem first_block_replayed : ∃ w db₀ db db',
    Runs.run (step crypto) genesis claimed = some w ∧
    Database.consume bech32 {} (eventsBefore w.chain 1) = some db₀ ∧
    db₀.consume bech32 (blockEvents w.chain 1) = some db ∧
    db.consume bech32 (blockEvents w.chain 1) = some db' ∧ (db.contracts.lookup 1).isSome ∧
    RowsKept db db' := by
  have h : ((Runs.run (step crypto) genesis claimed).bind fun w =>
      (Database.recordMessages {} (eventsBefore w.chain 1)).bind fun db₀ =>
        (db₀.recordMessages (blockEvents w.chain 1)).bind fun db =>
          (db.recordMessages (blockEvents w.chain 1)).map fun _ =>
            (decide (∀ x ∈ w.chain.events, Fits x.2 ∧ Intact x.2),
              (blockEvents w.chain 1).all fun x => (Event.ends? x.2).isNone,
              (db.contracts.lookup 1).isSome)) = some (true, true, true) := by
    rw [claimed_run]
    decide +kernel
  obtain ⟨w, hw, h⟩ := Option.bind_eq_some_iff.mp h
  obtain ⟨db₀, h₀, h⟩ := Option.bind_eq_some_iff.mp h
  obtain ⟨db, h₁, h⟩ := Option.bind_eq_some_iff.mp h
  obtain ⟨db', h₂, h⟩ := Option.map_eq_some_iff.mp h
  obtain ⟨hintact, h⟩ := Prod.mk.inj h
  obtain ⟨hsettles, hrow⟩ := Prod.mk.inj h
  have hsame := consume_of_intact hw (of_decide_eq_true hintact)
  rw [eventsBefore, ← hsame] at h₀
  rw [blockEvents, ← hsame] at h₁ h₂
  refine ⟨w, db₀, db, db', hw, h₀, h₁, h₂, hrow,
    replay_harmless bech32 genesis_ok hw 1 h₀ h₁ h₂ ?_⟩
  intro x hx k _ e he
  have hx' := List.all_eq_true.mp hsettles x hx
  rw [he] at hx'
  cases hx'

/-- The second block, with a claim: a replay doubles what was paid. -/
theorem claim_paid_twice : ∃ w db₀ db db',
    Runs.run (step crypto) genesis claimed = some w ∧
    Database.consume bech32 {} (eventsBefore w.chain 2) = some db₀ ∧
    db₀.consume bech32 (blockEvents w.chain 2) = some db ∧
    db.consume bech32 (blockEvents w.chain 2) = some db' ∧ ¬RowsKept db db' := by
  have h : ((Runs.run (step crypto) genesis claimed).bind fun w =>
      (Database.recordMessages {} (eventsBefore w.chain 2)).bind fun db₀ =>
        (db₀.recordMessages (blockEvents w.chain 2)).bind fun db =>
          (db.recordMessages (blockEvents w.chain 2)).bind fun db' =>
            (db.contracts.lookup 2).bind fun row => (db'.contracts.lookup 2).map fun row' =>
              (decide (∀ x ∈ w.chain.events, Fits x.2 ∧ Intact x.2), row.paid, row'.paid)) =
      some (true, 30, 60) := by
    rw [claimed_run]
    decide +kernel
  obtain ⟨w, hw, h⟩ := Option.bind_eq_some_iff.mp h
  obtain ⟨db₀, h₀, h⟩ := Option.bind_eq_some_iff.mp h
  obtain ⟨db, h₁, h⟩ := Option.bind_eq_some_iff.mp h
  obtain ⟨db', h₂, h⟩ := Option.bind_eq_some_iff.mp h
  obtain ⟨row, hrow, h⟩ := Option.bind_eq_some_iff.mp h
  obtain ⟨row', hrow', h⟩ := Option.map_eq_some_iff.mp h
  obtain ⟨hintact, h⟩ := Prod.mk.inj h
  obtain ⟨hp, hp'⟩ := Prod.mk.inj h
  have hsame := consume_of_intact hw (of_decide_eq_true hintact)
  rw [eventsBefore, ← hsame] at h₀
  rw [blockEvents, ← hsame] at h₁ h₂
  refine ⟨w, db₀, db, db', hw, h₀, h₁, h₂, ?_⟩
  intro hkept
  obtain rfl : row = row' := Option.some.inj ((hkept 2 row hrow).symm.trans hrow')
  rw [hp] at hp'
  cases hp'

end Sample

end Arkeo.Directory
