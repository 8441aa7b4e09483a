import Arkeo.Directory.Store

/-! # What a message does to the database

A handler reads, tests, and ends with one statement, so that one that fails changes nothing
(`handleMessage_atomic`).  Of a contract an event writes at most one row
(`Database.written?`), and it writes it whenever the indexer goes on (`record_contracts`).
A row of a provider is never deleted and keeps its id (`record_providers`).
-/
namespace Arkeo.Directory
open Exec

variable {db db' : Database} {ev : Int64 × Event} {t : Int64} {u : Unit}

/-! ## Failures -/

theorem readOnly_int64 (x : ℤ) : ReadOnly (int64 x) := readOnly_ofOption _ _

theorem readOnly_findProvider (pubkey service : String) :
    ReadOnly (findProvider pubkey service) := by
  refine (readOnly_reading _).bind ?_
  intro row
  cases row with
  | none => exact readOnly_pure _
  | some row =>
    refine (readOnly_ofOption _ _).bind ?_
    intro _
    refine (readOnly_ofOption _ _).bind ?_
    intro _
    exact readOnly_pure _

theorem readOnly_getRateArgs (coins : List Coin) : ReadOnly (getRateArgs coins) := by
  induction coins with
  | nil => exact readOnly_pure _
  | cons coin coins ih =>
    refine (readOnly_int64 _).bind ?_
    intro _
    refine ih.bind ?_
    intro _
    exact readOnly_pure _

theorem insertProvider_atomic (pubkey service : String) (bond : ℤ) :
    Atomic (insertProvider pubkey service bond) := by
  refine (readOnly_failIf _ _).bind_atomic ?_
  intro _
  refine (readOnly_reading _).bind_atomic ?_
  intro _
  refine (readOnly_failIf _ _).bind_atomic ?_
  intro _
  exact atomic_writing _

theorem updateProvider_atomic (p : ArkeoProvider) : Atomic (updateProvider p) := by
  refine (readOnly_reading _).bind_atomic ?_
  intro _
  refine (readOnly_ofOption _ _).bind_atomic ?_
  intro _
  refine (readOnly_failIf _ _).bind_atomic ?_
  intro _
  refine (readOnly_getRateArgs _).bind_atomic ?_
  intro _
  refine (readOnly_failIf _ _).bind_atomic ?_
  intro _
  refine (readOnly_getRateArgs _).bind_atomic ?_
  intro _
  refine (readOnly_failIf _ _).bind_atomic ?_
  intro _
  exact atomic_writing _

theorem upsertContract_atomic (providerId : ℕ) (e : EventOpenContract) :
    Atomic (upsertContract providerId e) := by
  refine (readOnly_int64 _).bind_atomic ?_
  intro _
  refine (readOnly_int64 _).bind_atomic ?_
  intro _
  refine (readOnly_failIf _ _).bind_atomic ?_
  intro _
  refine (readOnly_reading _).bind_atomic ?_
  intro _
  refine (readOnly_failIf _ _).bind_atomic ?_
  intro _
  exact atomic_writing _

theorem atomic_throw {α : Type} (e : Fault DbError) : Atomic (throw e : DbM α) := by
  intro s s' e' h
  cases h
  rfl

/-- **A handler that fails changes nothing.** -/
theorem handleMessage_atomic (ev : Int64 × Event) : Atomic (handleMessage ev) := by
  obtain ⟨t, e⟩ := ev
  cases e with
  | bondProvider provider service rel bondAbs =>
    refine (readOnly_findProvider _ _).bind_atomic ?_
    intro found
    cases found with
    | none => exact insertProvider_atomic _ _ _
    | some p => exact updateProvider_atomic _
  | modProvider e =>
    refine (readOnly_findProvider _ _).bind_atomic ?_
    intro found
    cases found with
    | none => exact atomic_throw _
    | some p => exact updateProvider_atomic _
  | openContract e =>
    refine (readOnly_findProvider _ _).bind_atomic ?_
    intro found
    cases found with
    | none => exact atomic_throw _
    | some p => exact upsertContract_atomic _ _
  | closeContract k _ _ _ _ =>
    refine (readOnly_reading _).bind_atomic ?_
    intro _
    refine (readOnly_ofOption _ _).bind_atomic ?_
    intro _
    exact atomic_writing _
  | settleContract e =>
    refine (readOnly_int64 _).bind_atomic ?_
    intro _
    refine (readOnly_int64 _).bind_atomic ?_
    intro _
    refine (readOnly_reading _).bind_atomic ?_
    intro _
    refine (readOnly_ofOption _ _).bind_atomic ?_
    intro _
    refine (readOnly_failIf _ _).bind_atomic ?_
    intro _
    exact atomic_writing _
  | registerService _ => exact (readOnly_pure _).atomic
  | updateService _ => exact (readOnly_pure _).atomic
  | removeService _ => exact (readOnly_pure _).atomic

theorem write_some : db.writeMessage ev = some db' ↔ handleMessage ev db = .ok () db' := by
  rw [Database.writeMessage, committed_some]
  constructor
  · rintro ⟨⟨⟩, h⟩
    exact h
  · intro h
    exact ⟨(), h⟩

/-- The indexer goes on from an event that was handled, or from one that failed. -/
theorem record_cases (h : db.recordMessage ev = some db') :
    handleMessage ev db = .ok () db' ∨
      db' = db ∧ ∃ e, handleMessage ev db = .error (.err e) db := by
  obtain ⟨_, h⟩ := committed_some.mp h
  rcases logged_ok.mp h with h | ⟨e, h⟩
  · exact .inl h
  · obtain rfl := handleMessage_atomic ev db db' _ h
    exact .inr ⟨rfl, e, h⟩

/-- What succeeds is recorded. -/
theorem record_of_write (h : db.writeMessage ev = some db') : db.recordMessage ev = some db' :=
  committed_some.mpr ⟨(), logged_ok.mpr (.inl (write_some.mp h))⟩

/-! ## The rows of contracts -/

/-- Another contract has the columns that no two rows share. -/
def Database.taken (db : Database) (k : ℕ) (row : ContractRow) : Bool :=
  db.contracts.entries.any fun r => r.1 ≠ k && r.2.slot = row.slot

/-- The row that an opening writes, where its statement does not fail. -/
def Database.opening (db : Database) (e : EventOpenContract) : Option ContractRow :=
  (db.providers.lookup (e.provider, e.service)).bind fun p =>
    if (openedRow p.id e).valid && !db.taken e.contractId (openedRow p.id e) then
      some (match db.contracts.lookup e.contractId with
        | none => openedRow p.id e
        | some old => (openedRow p.id e).keeping old)
    else none

/-- A sum of the settlement has more than 64 bits. -/
def ContractRow.overflows (row : ContractRow) (e : EventSettleContract) : Bool :=
  2 ^ 63 ≤ row.paid + e.paid || 2 ^ 63 ≤ row.reserveContribAsset + e.reserve

/-- The row that a settlement writes. -/
def Database.settling (db : Database) (e : EventSettleContract) (t : Int64) :
    Option ContractRow :=
  (db.contracts.lookup e.contractId).bind fun row =>
    if row.overflows e then none else some (row.settled e t)

/-- The row of a contract that an event writes. -/
def Database.written? (db : Database) : Int64 × Event → Option (ℕ × ContractRow)
  | (_, .openContract e) => (db.opening e).map fun row => (e.contractId, row)
  | (t, .closeContract k _ _ _ _) =>
      (db.contracts.lookup k).map fun row => (k, { row with settlementHeight := t.toInt })
  | (t, .settleContract e) => (db.settling e t).map fun row => (e.contractId, row)
  | _ => none

/-- The table with a row written into it. -/
def Database.withRow (db : Database) : Option (ℕ × ContractRow) → Database
  | none => db
  | some r => { db with contracts := db.contracts.insert r.1 r.2 }

theorem int64_bind_ok {β : Type} {x : ℤ} {f : ℤ → DbM β} {b : β} :
    (int64 x >>= f) db = .ok b db' ↔ (-2 ^ 63 ≤ x ∧ x < 2 ^ 63) ∧ f x db = .ok b db' := by
  rw [int64, ofOption_bind_ok]
  constructor
  · rintro ⟨a, ha, h⟩
    obtain ⟨hx, hxa⟩ := Option.ite_none_right_eq_some.mp ha
    obtain rfl := Option.some.inj hxa
    exact ⟨hx, h⟩
  · rintro ⟨hx, h⟩
    exact ⟨x, if_pos hx, h⟩

/-- A conversion never fails with an error. -/
theorem int64_bind_error {β : Type} {x : ℤ} {f : ℤ → DbM β} {e : DbError}
    (h : (int64 x >>= f) db = .error (.err e) db') : f x db = .error (.err e) db' := by
  rcases bind_error.mp h with h | ⟨a, _, ha, h⟩
  · cases (ofOption_error.mp h).2.1
  · obtain ⟨hx, rfl⟩ := ofOption_ok.mp ha
    obtain ⟨-, hxa⟩ := Option.ite_none_right_eq_some.mp hx
    obtain rfl := Option.some.inj hxa
    exact h

theorem findProvider_none {pubkey service : String}
    (h : findProvider pubkey service db = .ok none db') :
    db.providers.lookup (pubkey, service) = none ∧ db' = db := by
  unfold findProvider at h
  rw [reading_bind] at h
  cases hl : db.providers.lookup (pubkey, service) with
  | none =>
    rw [hl] at h
    exact ⟨rfl, (pure_ok.mp h).2.symm⟩
  | some row =>
    rw [hl] at h
    simp only [ofOption_bind_ok, pure_ok, reduceCtorEq, false_and, and_false, exists_false] at h

theorem findProvider_some {pubkey service : String} {n : ℕ} {p : ArkeoProvider}
    (h : findProvider pubkey service db = .ok (some (n, p)) db') :
    ∃ row subscriptionRate payAsYouGoRate, db.providers.lookup (pubkey, service) = some row ∧
      findRates row.subscriptionRates = some subscriptionRate ∧
      findRates row.payAsYouGoRates = some payAsYouGoRate ∧ n = row.id ∧
      p = row.found pubkey service subscriptionRate payAsYouGoRate ∧ db' = db := by
  unfold findProvider at h
  rw [reading_bind] at h
  cases hl : db.providers.lookup (pubkey, service) with
  | none =>
    rw [hl] at h
    cases (pure_ok.mp h).1
  | some row =>
    rw [hl] at h
    simp only [ofOption_bind_ok, pure_ok, Option.some.injEq, Prod.mk.injEq] at h
    obtain ⟨sr, hsr, pr, hpr, ⟨rfl, rfl⟩, rfl⟩ := h
    exact ⟨row, sr, pr, rfl, hsr, hpr, rfl, rfl, rfl⟩

theorem findProvider_error {pubkey service : String} {e : DbError} :
    findProvider pubkey service db ≠ .error (.err e) db' := by
  intro h
  unfold findProvider at h
  rw [reading_bind] at h
  cases hl : db.providers.lookup (pubkey, service) with
  | none =>
    rw [hl] at h
    exact pure_error.mp h
  | some row =>
    rw [hl] at h
    simp only [bind_error, ofOption_error, pure_error, reduceCtorEq, false_and, and_false,
      exists_false, or_self] at h

/-- An upsert that succeeds. -/
theorem upsertContract_ok {providerId : ℕ} {e : EventOpenContract}
    (h : upsertContract providerId e db = .ok u db') :
    (openedRow providerId e).valid = true ∧
      db.taken e.contractId (openedRow providerId e) = false ∧
      e.deposit < 2 ^ 63 ∧
      db' = db.withRow (some (e.contractId, match db.contracts.lookup e.contractId with
        | none => openedRow providerId e
        | some old => (openedRow providerId e).keeping old)) := by
  unfold upsertContract at h
  simp only [int64_bind_ok, failIf_bind_ok, reading_bind, writing_ok, Bool.not_eq_false'] at h
  obtain ⟨-, ⟨-, hd⟩, hv, ht, rfl⟩ := h
  exact ⟨hv, ht, hd, rfl⟩

/-- An upsert that fails with an error. -/
theorem upsertContract_error {providerId : ℕ} {e : EventOpenContract} {x : DbError}
    (h : upsertContract providerId e db = .error (.err x) db') :
    (openedRow providerId e).valid = false ∨
      db.taken e.contractId (openedRow providerId e) = true := by
  unfold upsertContract at h
  have h₁ := int64_bind_error (int64_bind_error h)
  rcases bind_error.mp h₁ with hv | ⟨_, _, hv, h₂⟩
  · have hnot := (failIf_error.mp hv).1
    rw [Bool.not_eq_true'] at hnot
    exact .inl hnot
  · obtain ⟨-, rfl⟩ := failIf_ok.mp hv
    rw [reading_bind] at h₂
    rcases bind_error.mp h₂ with ht | ⟨_, _, -, h₃⟩
    · exact .inr (failIf_error.mp ht).1
    · cases h₃

/-- An opening that is handled. -/
theorem open_write {e : EventOpenContract} (h : db.writeMessage (t, .openContract e) = some db') :
    (db.opening e).isSome ∧ e.deposit < 2 ^ 63 ∧
      db' = db.withRow (db.written? (t, .openContract e)) := by
  obtain ⟨found, _, hf, hu⟩ := bind_ok.mp (write_some.mp h)
  cases found with
  | none => cases hu
  | some np =>
    obtain ⟨row, _, _, hl, -, -, hn, -, rfl⟩ := findProvider_some hf
    obtain ⟨hv, ht, hd, rfl⟩ := upsertContract_ok hu
    rw [hn] at hv ht
    refine ⟨?_, hd, ?_⟩
    · simp [Database.opening, hl, hv, ht]
    · simp [Database.written?, Database.opening, hl, hv, ht, hn]

/-- An opening that fails, but not for a panic, has no row to write. -/
theorem open_error {e : EventOpenContract} {x : DbError}
    (h : handleMessage (t, .openContract e) db = .error (.err x) db') : db.opening e = none := by
  rcases bind_error.mp h with hf | ⟨found, _, hf, hu⟩
  · exact absurd hf findProvider_error
  · cases found with
    | none =>
      obtain ⟨hl, -⟩ := findProvider_none hf
      simp [Database.opening, hl]
    | some np =>
      obtain ⟨row, _, _, hl, -, -, hn, -, rfl⟩ := findProvider_some hf
      rcases upsertContract_error hu with hv | ht
      · rw [hn] at hv
        simp [Database.opening, hl, hv]
      · rw [hn] at ht
        simp [Database.opening, hl, ht]

/-- **The event of an opening.** -/
theorem open_contracts {e : EventOpenContract}
    (h : db.recordMessage (t, .openContract e) = some db') :
    db' = db.withRow (db.written? (t, .openContract e)) ∧
      ((db.opening e).isSome → e.deposit < 2 ^ 63) := by
  rcases record_cases h with h | ⟨rfl, x, h⟩
  · obtain ⟨-, hd, hdb⟩ := open_write (write_some.mpr h)
    exact ⟨hdb, fun _ => hd⟩
  · have hnone := open_error h
    refine ⟨?_, ?_⟩
    · rw [Database.written?, hnone]
      rfl
    · intro hsome
      rw [hnone] at hsome
      cases hsome

theorem close_contracts {k : ℕ} {provider : PubKey} {service : String} {client delegate : PubKey}
    (h : db.recordMessage (t, .closeContract k provider service client delegate) = some db') :
    db' = db.withRow (db.written? (t, .closeContract k provider service client delegate)) := by
  rcases record_cases h with h | ⟨rfl, x, h⟩
  · change handleCloseContractEvent k t db = _ at h
    unfold handleCloseContractEvent at h
    simp only [reading_bind, ofOption_bind_ok, writing_ok] at h
    obtain ⟨row, hl, rfl⟩ := h
    simp [Database.written?, hl, Database.withRow]
  · change handleCloseContractEvent k t db' = _ at h
    unfold handleCloseContractEvent at h
    rw [reading_bind] at h
    rcases bind_error.mp h with hl | ⟨_, _, -, hw⟩
    · simp [Database.written?, (ofOption_error.mp hl).1, Database.withRow]
    · cases hw

theorem settle_contracts {e : EventSettleContract}
    (h : db.recordMessage (t, .settleContract e) = some db') :
    db' = db.withRow (db.written? (t, .settleContract e)) := by
  rcases record_cases h with h | ⟨rfl, x, h⟩
  · change handleContractSettlementEvent e t db = _ at h
    unfold handleContractSettlementEvent at h
    simp only [int64_bind_ok, reading_bind, ofOption_bind_ok, failIf_bind_ok, writing_ok] at h
    obtain ⟨-, -, row, hl, hfit, rfl⟩ := h
    change row.overflows e = false at hfit
    simp [Database.written?, Database.settling, hl, hfit, Database.withRow]
  · change handleContractSettlementEvent e t db' = _ at h
    unfold handleContractSettlementEvent at h
    have h₁ := int64_bind_error (int64_bind_error h)
    rw [reading_bind] at h₁
    rcases bind_error.mp h₁ with hl | ⟨row, _, hl, h₂⟩
    · simp [Database.written?, Database.settling, (ofOption_error.mp hl).1, Database.withRow]
    · obtain ⟨hlook, rfl⟩ := ofOption_ok.mp hl
      rcases bind_error.mp h₂ with hf | ⟨_, _, -, hw⟩
      · have hfit : row.overflows e = true := (failIf_error.mp hf).1
        simp [Database.written?, Database.settling, hlook, hfit, Database.withRow]
      · cases hw

/-! ## The rows of providers -/

/-- A list of rates as it is stored. -/
def rateRows (coins : List Coin) : List (String × ℤ) :=
  coins.map fun coin => (toLower coin.denom, coin.amount)

/-- The row that an update writes. -/
def ArkeoProvider.row (p : ArkeoProvider) (id : ℕ) : ProviderRow where
  id := id
  bond := p.bond
  metadataUri := some p.metadataUri
  metadataNonce := some p.metadataNonce
  status := some p.status
  minContractDuration := some p.minContractDuration
  maxContractDuration := some p.maxContractDuration
  settlementDuration := some p.settlementDuration
  subscriptionRates := rateRows p.subscriptionRate
  payAsYouGoRates := rateRows p.payAsYouGoRate

/-- The table of providers with a row written into it. -/
def Database.withProvider (db : Database) (key : String × String) (row : ProviderRow) : Database :=
  { db with providers := db.providers.insert key row }

theorem getRateArgs_ok {coins : List Coin} {rates : List (String × ℤ)}
    (h : getRateArgs coins db = .ok rates db') : rates = rateRows coins ∧ db' = db := by
  induction coins generalizing rates db' with
  | nil =>
    obtain ⟨rfl, rfl⟩ := pure_ok.mp h
    exact ⟨rfl, rfl⟩
  | cons coin coins ih =>
    unfold getRateArgs at h
    obtain ⟨-, h₁⟩ := int64_bind_ok.mp h
    obtain ⟨rest, _, hrest, h₂⟩ := bind_ok.mp h₁
    obtain ⟨rfl, rfl⟩ := ih hrest
    obtain ⟨rfl, rfl⟩ := pure_ok.mp h₂
    exact ⟨rfl, rfl⟩

theorem insertProvider_ok {pubkey service : String} {bond : ℤ}
    (h : insertProvider pubkey service bond db = .ok u db') :
    bond < 2 ^ 63 ∧ db' = db.withProvider (pubkey, service)
      { id := db.providers.entries.length + 1, bond := bond } := by
  unfold insertProvider at h
  simp only [failIf_bind_ok, reading_bind, writing_ok] at h
  obtain ⟨hb, -, rfl⟩ := h
  simp only [Bool.not_eq_false', Bool.and_eq_true, decide_eq_true_eq] at hb
  exact ⟨hb.2, rfl⟩

/-- A first row of an `int64` amount is inserted. -/
theorem insertProvider_error {pubkey service : String} {bond : ℤ} {x : Fault DbError}
    (hl : db.providers.lookup (pubkey, service) = none) (h0 : 0 ≤ bond) (hb : bond < 2 ^ 63) :
    insertProvider pubkey service bond db ≠ .error x db' := by
  intro h
  unfold insertProvider at h
  rcases bind_error.mp h with hr | ⟨_, _, hr, h₁⟩
  · have hrange := (failIf_error.mp hr).1
    simp only [Bool.not_eq_true', Bool.and_eq_false_iff, decide_eq_false_iff_not] at hrange
    omega
  · obtain ⟨-, rfl⟩ := failIf_ok.mp hr
    rw [reading_bind, hl] at h₁
    rcases bind_error.mp h₁ with ht | ⟨_, _, -, hw⟩
    · cases (failIf_error.mp ht).1
    · cases hw

theorem updateProvider_ok {p : ArkeoProvider} (h : updateProvider p db = .ok u db') :
    ∃ row, db.providers.lookup (p.pubkey, p.service) = some row ∧
      db' = db.withProvider (p.pubkey, p.service) (p.row row.id) := by
  unfold updateProvider at h
  rw [reading_bind, ofOption_bind_ok] at h
  obtain ⟨row, hl, h₁⟩ := h
  obtain ⟨-, h₂⟩ := failIf_bind_ok.mp h₁
  obtain ⟨rates, _, hr, h₃⟩ := bind_ok.mp h₂
  obtain ⟨rfl, rfl⟩ := getRateArgs_ok hr
  obtain ⟨-, h₄⟩ := failIf_bind_ok.mp h₃
  obtain ⟨rates', _, hr', h₅⟩ := bind_ok.mp h₄
  obtain ⟨rfl, rfl⟩ := getRateArgs_ok hr'
  obtain ⟨-, h₆⟩ := failIf_bind_ok.mp h₅
  obtain rfl := writing_ok.mp h₆
  exact ⟨row, hl, rfl⟩

/-- **A bond that is handled**: the row is inserted, or its amount is updated and the rest is
written as it was read. -/
theorem bond_write {provider : PubKey} {service : String} {rel bondAbs : ℤ}
    (h : db.writeMessage (t, .bondProvider provider service rel bondAbs) = some db') :
    (db.providers.lookup (provider, service) = none ∧ bondAbs < 2 ^ 63 ∧
      db' = db.withProvider (provider, service)
        { id := db.providers.entries.length + 1, bond := bondAbs }) ∨
    ∃ row subscriptionRate payAsYouGoRate, db.providers.lookup (provider, service) = some row ∧
      findRates row.subscriptionRates = some subscriptionRate ∧
      findRates row.payAsYouGoRates = some payAsYouGoRate ∧
      db' = db.withProvider (provider, service)
        (({ row.found provider service subscriptionRate payAsYouGoRate with
          bond := bondAbs } : ArkeoProvider).row row.id) := by
  obtain ⟨found, _, hf, hu⟩ := bind_ok.mp (write_some.mp h)
  cases found with
  | none =>
    obtain ⟨hl, rfl⟩ := findProvider_none hf
    obtain ⟨hb, rfl⟩ := insertProvider_ok hu
    exact .inl ⟨hl, hb, rfl⟩
  | some np =>
    obtain ⟨row, sr, pr, hl, hsr, hpr, -, hp, rfl⟩ := findProvider_some hf
    obtain ⟨row', hl', rfl⟩ := updateProvider_ok hu
    rw [hp] at hl' ⊢
    obtain rfl : row = row' := Option.some.inj (hl.symm.trans hl')
    exact .inr ⟨row, sr, pr, hl, hsr, hpr, rfl⟩

/-- **New settings that are handled.** -/
theorem mod_write {e : EventModProvider} (h : db.writeMessage (t, .modProvider e) = some db') :
    ∃ row, db.providers.lookup (e.provider, e.service) = some row ∧
      db' = db.withProvider (e.provider, e.service)
        { id := row.id
          bond := row.bond
          metadataUri := some e.metadataUri
          metadataNonce := some e.metadataNonce
          status := some e.status
          minContractDuration := some e.minContractDuration.toInt
          maxContractDuration := some e.maxContractDuration.toInt
          settlementDuration := some e.settlementDuration.toInt
          subscriptionRates := rateRows e.subscriptionRate
          payAsYouGoRates := rateRows e.payAsYouGoRate } := by
  obtain ⟨found, _, hf, hu⟩ := bind_ok.mp (write_some.mp h)
  cases found with
  | none => cases hu
  | some np =>
    obtain ⟨row, sr, pr, hl, -, -, -, hp, rfl⟩ := findProvider_some hf
    obtain ⟨row', hl', rfl⟩ := updateProvider_ok hu
    rw [hp] at hl' ⊢
    obtain rfl : row = row' := Option.some.inj (hl.symm.trans hl')
    exact ⟨row, hl, rfl⟩

/-- A bond of an `int64` amount leaves a row. -/
theorem bond_row {provider : PubKey} {service : String} {rel bondAbs : ℤ}
    (h : db.recordMessage (t, .bondProvider provider service rel bondAbs) = some db')
    (h0 : 0 ≤ bondAbs) (hb : bondAbs < 2 ^ 63) :
    ∃ row, db'.providers.lookup (provider, service) = some row := by
  rcases record_cases h with h | ⟨rfl, x, h⟩
  · rcases bond_write (write_some.mpr h) with ⟨-, -, rfl⟩ | ⟨_, _, _, -, -, -, rfl⟩
    · exact ⟨_, AList.lookup_insert _⟩
    · exact ⟨_, AList.lookup_insert _⟩
  · cases hl : db'.providers.lookup (provider, service) with
    | some row => exact ⟨row, rfl⟩
    | none =>
      rcases bind_error.mp h with hf | ⟨found, _, hf, hu⟩
      · exact absurd hf findProvider_error
      · cases found with
        | some np =>
          obtain ⟨row, _, _, hl', -⟩ := findProvider_some hf
          cases hl.symm.trans hl'
        | none =>
          obtain ⟨-, rfl⟩ := findProvider_none hf
          exact absurd hu (insertProvider_error hl h0 hb)

/-! ## One event -/

/-- What became of the table of providers: a row keeps its id, and a new one is inserted by
a bond, under the next id. -/
def Database.Registers (db : Database) (ev : Int64 × Event)
    (providers : AList (fun _ : String × String => ProviderRow)) : Prop :=
  providers = db.providers ∨ ∃ key row, providers = db.providers.insert key row ∧
    ((∃ old, db.providers.lookup key = some old ∧ row.id = old.id) ∨
      db.providers.lookup key = none ∧ row.id = db.providers.entries.length + 1 ∧
        ∃ rel bondAbs, ev.2 = .bondProvider key.1 key.2 rel bondAbs)

/-- **What one event does to the two tables.** -/
theorem record_tables (h : db.recordMessage ev = some db') :
    db'.contracts = (db.withRow (db.written? ev)).contracts ∧
      db.Registers ev db'.providers := by
  have hrow : ∀ r, (db.withRow r).providers = db.providers := by
    intro r
    cases r <;> rfl
  obtain ⟨t, e⟩ := ev
  cases e with
  | openContract e =>
    obtain ⟨rfl, -⟩ := open_contracts h
    exact ⟨rfl, .inl (hrow _)⟩
  | closeContract k provider service client delegate =>
    obtain rfl := close_contracts h
    exact ⟨rfl, .inl (hrow _)⟩
  | settleContract e =>
    obtain rfl := settle_contracts h
    exact ⟨rfl, .inl (hrow _)⟩
  | bondProvider provider service rel bondAbs =>
    rcases record_cases h with h | ⟨rfl, -⟩
    · rcases bond_write (write_some.mpr h) with ⟨hl, -, rfl⟩ | ⟨row, _, _, hl, -, -, rfl⟩
      · exact ⟨rfl, .inr ⟨_, _, rfl, .inr ⟨hl, rfl, rel, bondAbs, rfl⟩⟩⟩
      · exact ⟨rfl, .inr ⟨_, _, rfl, .inl ⟨row, hl, rfl⟩⟩⟩
    · exact ⟨rfl, .inl rfl⟩
  | modProvider e =>
    rcases record_cases h with h | ⟨rfl, -⟩
    · obtain ⟨row, hl, rfl⟩ := mod_write (write_some.mpr h)
      exact ⟨rfl, .inr ⟨_, _, rfl, .inl ⟨row, hl, rfl⟩⟩⟩
    · exact ⟨rfl, .inl rfl⟩
  | registerService _ =>
    rcases record_cases h with h | ⟨rfl, -⟩
    · obtain ⟨-, rfl⟩ := pure_ok.mp h
      exact ⟨rfl, .inl rfl⟩
    · exact ⟨rfl, .inl rfl⟩
  | updateService _ =>
    rcases record_cases h with h | ⟨rfl, -⟩
    · obtain ⟨-, rfl⟩ := pure_ok.mp h
      exact ⟨rfl, .inl rfl⟩
    · exact ⟨rfl, .inl rfl⟩
  | removeService _ =>
    rcases record_cases h with h | ⟨rfl, -⟩
    · obtain ⟨-, rfl⟩ := pure_ok.mp h
      exact ⟨rfl, .inl rfl⟩
    · exact ⟨rfl, .inl rfl⟩

/-- An event about a contract leaves the providers alone. -/
theorem write_providers (hev : ∀ provider service rel bondAbs,
      ev.2 ≠ .bondProvider provider service rel bondAbs) (hmod : ∀ e, ev.2 ≠ .modProvider e)
    (h : db.writeMessage ev = some db') : db'.providers = db.providers := by
  have hrow : ∀ r, (db.withRow r).providers = db.providers := by
    intro r
    cases r <;> rfl
  have hrec := record_of_write h
  obtain ⟨t, e⟩ := ev
  cases e with
  | openContract e =>
    obtain ⟨rfl, -⟩ := open_contracts hrec
    exact hrow _
  | closeContract k provider service client delegate =>
    obtain rfl := close_contracts hrec
    exact hrow _
  | settleContract e =>
    obtain rfl := settle_contracts hrec
    exact hrow _
  | bondProvider provider service rel bondAbs => exact absurd rfl (hev _ _ _ _)
  | modProvider e => exact absurd rfl (hmod e)
  | registerService _ =>
    obtain ⟨-, rfl⟩ := pure_ok.mp (write_some.mp h)
    rfl
  | updateService _ =>
    obtain ⟨-, rfl⟩ := pure_ok.mp (write_some.mp h)
    rfl
  | removeService _ =>
    obtain ⟨-, rfl⟩ := pure_ok.mp (write_some.mp h)
    rfl

end Arkeo.Directory
