import Arkeo.Bonds
import Arkeo.Conservation
import Arkeo.Directory.Indexer
import Arkeo.History
import Arkeo.Services

/-! # The contracts of the directory

The rows of `contracts` against the contracts of the chain.  `Mirror` says of a database
that it has a row of every contract, with the terms it was opened on and the amounts the
chain has moved for it, and that the row was touched by no settlement and no close exactly
while the chain has emitted none.  Every event but that of an opening keeps it; the event of
an opening keeps it when the row can be written (`followed_step`).
-/
namespace Arkeo.Directory
open Exec

variable {cr : Crypto} {ctx : Context} {s s' : ChainState} {w w' : World} {a : Action}
  {db db' : Database} {ev m : Int64 × Event} {k : ℕ} {c : Contract} {row : ContractRow}

/-! ## Ids of providers -/

/-- No two providers have one id. -/
structure Database.Ids (db : Database) : Prop where
  le_length : ∀ key p, db.providers.lookup key = some p → p.id ≤ db.providers.entries.length
  injective : ∀ key key' p p', db.providers.lookup key = some p →
    db.providers.lookup key' = some p' → p.id = p'.id → key = key'

theorem length_insert_of_none {key : String × String} {p : ProviderRow}
    (h : db.providers.lookup key = none) :
    (db.providers.insert key p).entries.length = db.providers.entries.length + 1 := by
  rw [AList.entries_insert_of_notMem (AList.lookup_eq_none.mp h), List.length_cons]

theorem length_le_insert (key : String × String) (p : ProviderRow) :
    db.providers.entries.length ≤ (db.providers.insert key p).entries.length := by
  cases h : db.providers.lookup key with
  | none =>
    rw [length_insert_of_none h]
    omega
  | some old =>
    have hmem : key ∈ db.providers.keys :=
      AList.mem_keys.mp (AList.lookup_isSome.mp (by rw [h]; rfl))
    have hkeys : ∀ m : AList (fun _ : String × String => ProviderRow),
        m.keys.length = m.entries.length := by
      intro m
      exact List.length_map ..
    have hlen := @List.length_erase_of_mem _ instBEqOfDecidableEq inferInstance _ _ hmem
    rw [← hkeys, ← hkeys, AList.keys_insert, List.length_cons, hlen]
    omega

/-- **One event** keeps the ids. -/
theorem Database.Ids.registers (h : db.Ids) (hr : db.Registers ev db'.providers) : db'.Ids := by
  rcases hr with he | ⟨key, p, he, hold⟩
  · refine ⟨?_, ?_⟩
    · intro key p hp
      rw [he] at hp ⊢
      exact h.le_length key p hp
    · intro key key' p p' hp hp'
      rw [he] at hp hp'
      exact h.injective key key' p p' hp hp'
  · -- the id under the key is the old one, or larger than all others
    have hid : ∀ key' q, key' ≠ key → db.providers.lookup key' = some q → q.id ≠ p.id := by
      intro key' q hne hq heq
      rcases hold with ⟨old, hold, hpid⟩ | ⟨-, hpid, -⟩
      · exact hne (h.injective key' key q old hq hold (heq.trans hpid))
      · have := h.le_length key' q hq
        omega
    refine ⟨?_, ?_⟩
    · intro key' q hq
      rw [he] at hq ⊢
      by_cases hk : key' = key
      · subst hk
        rw [AList.lookup_insert] at hq
        obtain rfl := Option.some.inj hq
        rcases hold with ⟨old, hold, hpid⟩ | ⟨hnone, hpid, -⟩
        · rw [hpid]
          exact (h.le_length key' old hold).trans (length_le_insert _ _)
        · rw [length_insert_of_none hnone, hpid]
      · rw [AList.lookup_insert_ne hk] at hq
        exact (h.le_length key' q hq).trans (length_le_insert _ _)
    · intro k₁ k₂ q₁ q₂ h₁ h₂ heq
      rw [he] at h₁ h₂
      by_cases hk₁ : k₁ = key
      · by_cases hk₂ : k₂ = key
        · rw [hk₁, hk₂]
        · rw [hk₁, AList.lookup_insert] at h₁
          rw [AList.lookup_insert_ne hk₂] at h₂
          obtain rfl := Option.some.inj h₁
          exact absurd heq.symm (hid k₂ q₂ hk₂ h₂)
      · by_cases hk₂ : k₂ = key
        · rw [hk₂, AList.lookup_insert] at h₂
          rw [AList.lookup_insert_ne hk₁] at h₁
          obtain rfl := Option.some.inj h₂
          exact absurd heq (hid k₁ q₁ hk₁ h₁)
        · rw [AList.lookup_insert_ne hk₁] at h₁
          rw [AList.lookup_insert_ne hk₂] at h₂
          exact h.injective k₁ k₂ q₁ q₂ h₁ h₂ heq

/-- A row is still there, under its id. -/
theorem Database.Registers.kept (hr : db.Registers ev db'.providers) {key : String × String}
    {p : ProviderRow} (hp : db.providers.lookup key = some p) :
    ∃ p', db'.providers.lookup key = some p' ∧ p'.id = p.id := by
  rcases hr with he | ⟨key', q, he, hold⟩
  · exact ⟨p, by rw [he]; exact hp, rfl⟩
  · by_cases hk : key = key'
    · subst hk
      refine ⟨q, by rw [he]; exact AList.lookup_insert _, ?_⟩
      rcases hold with ⟨old, hold, hid⟩ | ⟨hnone, -⟩
      · obtain rfl : old = p := Option.some.inj (hold.symm.trans hp)
        exact hid
      · cases hnone.symm.trans hp
    · exact ⟨p, by rw [he, AList.lookup_insert_ne hk]; exact hp, rfl⟩

/-- `left outer join providers p on p.id = c.provider_id`. -/
def Database.providerOf (db : Database) (id : ℕ) : Option (String × String) :=
  (db.providers.entries.find? fun r => r.2.id = id).map Sigma.fst

theorem Database.Ids.providerOf (h : db.Ids) {key : String × String} {p : ProviderRow}
    (hp : db.providers.lookup key = some p) : db.providerOf p.id = some key := by
  unfold Database.providerOf
  cases hf : db.providers.entries.find? fun r => r.2.id = p.id with
  | none =>
    have hnot := List.find?_eq_none.mp hf ⟨key, p⟩ (AList.mem_entries.mpr hp)
    simp at hnot
  | some r =>
    have hr := AList.mem_entries.mp (List.mem_of_find?_eq_some hf)
    have hid := List.find?_some hf
    rw [decide_eq_true_eq] at hid
    rw [h.injective key r.1 p r.2 hp hr hid.symm]
    rfl

/-! ## The rows of contracts -/

/-- The contract whose settlement height an event writes. -/
def Event.ends? : Event → Option ℕ
  | .settleContract e => some e.contractId
  | .closeContract k _ _ _ _ => some k
  | _ => none

/-- A row as the chain has the contract: the terms of its opening, its nonce, what was paid,
and what the reserve got. -/
structure Copies (db : Database) (s : ChainState) (k : ℕ) (c : Contract) (row : ContractRow) :
    Prop where
  provider : db.providerOf row.providerId = some (c.provider, serviceString c.service)
  client : row.clientPubkey = c.client
  delegate : row.delegatePubkey = c.delegate
  height : row.height = c.height.toInt
  deposit : row.deposit = s.moved (.deposit k)
  nonce : row.nonce = c.nonce.toInt
  paid : row.paid = c.paid
  reserve : row.reserveContribAsset = s.moved (.tax k)

/-- What keeps a row a copy. -/
structure Tracks (db : Database) (s : ChainState) (k : ℕ) (c : Contract) (row : ContractRow) :
    Prop where
  provider : ∃ p, db.providers.lookup (c.provider, serviceString c.service) = some p ∧
    p.id = row.providerId
  client : row.clientPubkey = c.client
  delegate : row.delegatePubkey = c.delegate
  height : row.height = c.height.toInt
  duration : row.duration = c.duration.toInt
  deposit : row.deposit = s.moved (.deposit k)
  deposit_lt : row.deposit < 2 ^ 63
  deposit_le : c.deposit ≤ row.deposit
  nonce : row.nonce = c.nonce.toInt
  paid : row.paid = c.paid
  reserve : row.reserveContribAsset = s.moved (.tax k)
  reserve_le : row.reserveContribAsset ≤ row.paid
  untouched : row.settlementHeight = 0 ↔ ∀ x ∈ s.events, Event.ends? x.2 ≠ some k
  settled : c.settlementHeight ≠ 0 → row.settlementHeight ≠ 0

/-- The directory's copy of the chain. -/
structure Mirror (db : Database) (s : ChainState) : Prop where
  ids : db.Ids
  rows : ∀ k c, s.contracts.lookup k = some c →
    ∃ row, db.contracts.lookup k = some row ∧ Tracks db s k c row
  only : ∀ k row, db.contracts.lookup k = some row → ∃ c, s.contracts.lookup k = some c
  bonded : ∀ t provider service rel bondAbs,
    (t, Event.bondProvider provider service rel bondAbs) ∈ s.events → Passes service →
      0 ≤ bondAbs → bondAbs < 2 ^ 63 → ∃ p, db.providers.lookup (provider, service) = some p
  ended : ∀ x ∈ s.events, ∀ k, Event.ends? x.2 = some k → ∃ c, s.contracts.lookup k = some c

theorem Tracks.copies (h : Tracks db s k c row) (hids : db.Ids) : Copies db s k c row := by
  obtain ⟨p, hp, hid⟩ := h.provider
  refine ⟨?_, h.client, h.delegate, h.height, h.deposit, h.nonce, h.paid, h.reserve⟩
  rw [← hid]
  exact hids.providerOf hp

/-- A row of a contract that nothing happens to. -/
theorem Tracks.frame (h : Tracks db s k c row) (hr : db.Registers ev db'.providers)
    (hm : ∀ q, q.contractId? = some k → s'.moved q = s.moved q) {es : List (Int64 × Event)}
    (he : s'.events = s.events ++ es) (hes : ∀ x ∈ es, Event.ends? x.2 ≠ some k) :
    Tracks db' s' k c row := by
  refine { h with provider := ?_, deposit := ?_, reserve := ?_, untouched := ?_ }
  · obtain ⟨p, hp, hid⟩ := h.provider
    obtain ⟨p', hp', hid'⟩ := hr.kept hp
    exact ⟨p', hp', hid'.trans hid⟩
  · rw [hm (.deposit k) rfl]
    exact h.deposit
  · rw [hm (.tax k) rfl]
    exact h.reserve
  · rw [h.untouched, he]
    constructor
    · intro hall x hx
      rcases List.mem_append.mp hx with hx | hx
      · exact hall x hx
      · exact hes x hx
    · intro hall x hx
      exact hall x (List.mem_append_left _ hx)

/-- The bonds of the past have rows. -/
theorem Mirror.bonded_append (h : Mirror db s) (hr : db.Registers m db'.providers)
    (he : s'.events = s.events ++ [ev])
    (hnew : ∀ provider service rel bondAbs, ev.2 = .bondProvider provider service rel bondAbs →
      Passes service → 0 ≤ bondAbs → bondAbs < 2 ^ 63 →
        ∃ p, db'.providers.lookup (provider, service) = some p) :
    ∀ t provider service rel bondAbs,
      (t, Event.bondProvider provider service rel bondAbs) ∈ s'.events → Passes service →
        0 ≤ bondAbs → bondAbs < 2 ^ 63 →
          ∃ p, db'.providers.lookup (provider, service) = some p := by
  intro t provider service rel bondAbs hmem hpass h0 hb
  rw [he] at hmem
  rcases List.mem_append.mp hmem with hmem | hmem
  · obtain ⟨p, hp⟩ := h.bonded t provider service rel bondAbs hmem hpass h0 hb
    obtain ⟨p', hp', -⟩ := hr.kept hp
    exact ⟨p', hp'⟩
  · exact hnew provider service rel bondAbs (congrArg Prod.snd (List.mem_singleton.mp hmem).symm)
      hpass h0 hb

/-- **A change that touches no contract**, with the one event it emits. -/
theorem Mirror.quiet (h : Mirror db s) (hq : Quiet s s') (he : s'.events = s.events ++ [ev])
    (hheard : Heard db ev db') : Mirror db' s' := by
  obtain ⟨es, hes, hquiet⟩ := hq.events
  obtain rfl : [ev] = es := List.append_cancel_left (he.symm.trans hes)
  have hev : ev.2.isQuiet = true := hquiet ev (List.mem_singleton_self ev)
  have hends : Event.ends? ev.2 = none := by
    cases hx : ev.2 <;> rw [hx] at hev <;> first | rfl | cases hev
  obtain ⟨hcon', ⟨m, hreg⟩, hbonds⟩ := hheard.quiet hev
  obtain ⟨ps, hj, hps⟩ := hq.journal
  refine ⟨h.ids.registers hreg, ?_, ?_, h.bonded_append hreg he hbonds, ?_⟩
  · intro k c hc
    rw [hq.contracts] at hc
    obtain ⟨row, hrow, ht⟩ := h.rows k c hc
    refine ⟨row, by rw [hcon']; exact hrow, ht.frame hreg ?_ he ?_⟩
    · intro q hq'
      refine ChainState.moved_append hj ?_ hq'
      intro p hp
      rw [hps p hp]
      rfl
    · intro x hx
      rw [List.mem_singleton.mp hx, hends]
      exact nofun
  · intro k row hrow
    rw [hcon'] at hrow
    rw [hq.contracts]
    exact h.only k row hrow
  · intro x hx k hk
    rw [hq.contracts]
    rw [he] at hx
    rcases List.mem_append.mp hx with hx | hx
    · exact h.ended x hx k hk
    · rw [List.mem_singleton.mp hx, hends] at hk
      cases hk

/-- **The message of an event about one contract** writes its row and leaves the others
alone. -/
theorem Mirror.update (h : Mirror db s) (hrec : db.recordMessage m = some db')
    (hw : db.written? m = some (k, row)) (he : s'.events = s.events ++ [ev])
    (hev : ev.2.isQuiet = false)
    (hc : ∀ j, s'.contracts.lookup j = if j = k then some c else s.contracts.lookup j)
    (hm : ∀ j q, j ≠ k → q.contractId? = some j → s'.moved q = s.moved q)
    (hends : ∀ j, Event.ends? ev.2 = some j → j = k) (ht : Tracks db' s' k c row) :
    Mirror db' s' := by
  obtain ⟨hcon, hreg⟩ := record_tables hrec
  rw [hw] at hcon
  have hcon' : db'.contracts = db.contracts.insert k row := hcon
  have hbonds : ∀ provider service rel bondAbs,
      ev.2 ≠ .bondProvider provider service rel bondAbs := by
    intro provider service rel bondAbs hbond
    rw [hbond] at hev
    cases hev
  refine ⟨h.ids.registers hreg, ?_, ?_, h.bonded_append hreg he
    (fun _ _ _ _ hbond => absurd hbond (hbonds _ _ _ _)), ?_⟩
  · intro j d hd
    rw [hc] at hd
    by_cases hj : j = k
    · rw [if_pos hj] at hd
      obtain rfl := Option.some.inj hd
      subst hj
      exact ⟨row, by rw [hcon']; exact AList.lookup_insert _, ht⟩
    · rw [if_neg hj] at hd
      obtain ⟨r, hr, htr⟩ := h.rows j d hd
      refine ⟨r, by rw [hcon', AList.lookup_insert_ne hj]; exact hr,
        htr.frame hreg (fun q => hm j q hj) he ?_⟩
      intro x hx hx'
      rw [List.mem_singleton.mp hx] at hx'
      exact hj (hends j hx')
  · intro j r hr
    rw [hcon'] at hr
    rw [hc]
    by_cases hj : j = k
    · exact ⟨c, if_pos hj⟩
    · rw [AList.lookup_insert_ne hj] at hr
      rw [if_neg hj]
      exact h.only j r hr
  · intro x hx j hj
    rw [hc]
    rw [he] at hx
    rcases List.mem_append.mp hx with hx | hx
    · by_cases hjk : j = k
      · exact ⟨c, if_pos hjk⟩
      · rw [if_neg hjk]
        exact h.ended x hx j hj
    · rw [List.mem_singleton.mp hx] at hj
      exact ⟨c, if_pos (hends j hj)⟩

/-- **A settlement.** -/
theorem Mirror.settle (h : Mirror db s) (hi : Inv cr ctx s)
    (hc : s.contracts.lookup c.id = some c) (nonce : Int64) (isFinal : Bool)
    (hrec : db.recordMessage (ctx.blockHeight, .settleContract (settleEvent (c.raiseNonce nonce)
      ((c.raiseNonce nonce).debt ctx))) = some db') :
    Mirror db' (s.settle cr ctx (c.raiseNonce nonce) isFinal) := by
  obtain ⟨row, hrow, ht⟩ := h.rows c.id c hc
  have hw := Inv.wf_raiseNonce (hi.stored _ c hc).wf nonce
  have hd0 := Contract.debt_nonneg ctx hw.paid_le
  have hdle := Contract.debt_le ctx hw.paid_le
  obtain ⟨hr0, hr⟩ := reserveShare_bounds hd0
  have hev := s.settle_events cr ctx (c.raiseNonce nonce) isFinal
  have hpos := ctx.pos
  set debt := (c.raiseNonce nonce).debt ctx with hdebt
  set e := settleEvent (c.raiseNonce nonce) debt with he
  have hdep : c.paid + debt ≤ c.deposit := by
    have : (c.raiseNonce nonce).remaining = c.deposit - c.paid := rfl
    omega
  have hlt := ht.deposit_lt
  have hle := ht.deposit_le
  have hpaid := ht.paid
  have hres := ht.reserve_le
  have hep : e.paid = debt := by rw [he, settleEvent]
  have her : e.reserve = reserveShare debt := by rw [he, settleEvent]
  -- what was paid is within the deposit, which is an `int64`
  have hfits : row.overflows e = false := by
    have h1 : ¬2 ^ 63 ≤ row.paid + e.paid := by omega
    have h2 : ¬2 ^ 63 ≤ row.reserveContribAsset + e.reserve := by omega
    exact Bool.or_eq_false_iff.mpr ⟨decide_eq_false h1, decide_eq_false h2⟩
  have hwritten : db.written? (ctx.blockHeight, .settleContract e) =
      some (c.id, row.settled e ctx.blockHeight) := by
    have hrow' : db.contracts.lookup e.contractId = some row := hrow
    simp only [Database.written?, Database.settling, hrow', Option.bind_some, hfits]
    rfl
  obtain ⟨-, hreg⟩ := record_tables hrec
  refine h.update hrec hwritten hev rfl (s.settle_lookup cr ctx (c.raiseNonce nonce) isFinal) ?_ ?_ ?_
  · intro j q hj hq
    exact ChainState.moved_settle_of_ne isFinal hq hj
  · intro j hj
    exact (Option.some.inj hj).symm
  · obtain ⟨p, hp, hid⟩ := ht.provider
    obtain ⟨p', hp', hid'⟩ := hreg.kept hp
    refine ⟨⟨p', hp', hid'.trans hid⟩, ht.client, ht.delegate, ht.height, ht.duration, ?_,
      ht.deposit_lt, ?_, rfl, ?_, ?_, ?_, ?_, ?_⟩
    · rw [ChainState.moved_settle, if_neg (by simp), if_neg (by simp), if_neg (by simp)]
      simp only [Int.add_zero]
      exact ht.deposit
    · show (if isFinal = true then c.paid + debt else c.deposit) ≤ row.deposit
      split <;> omega
    · show row.paid + e.paid = c.paid + debt
      rw [hpaid, hep]
    · show row.reserveContribAsset + e.reserve = _
      rw [her, ChainState.moved_settle, if_neg (by simp), Contract.raiseNonce_id, if_pos rfl,
        if_neg (by simp), ht.reserve, ← hdebt]
      omega
    · show row.reserveContribAsset + e.reserve ≤ row.paid + e.paid
      omega
    · constructor
      · intro h0
        have h0' : ctx.blockHeight.toInt = 0 := h0
        omega
      · intro hall
        refine absurd rfl (hall (ctx.blockHeight, .settleContract e) ?_)
        rw [hev]
        exact List.mem_append_right _ (List.mem_singleton_self _)
    · intro _ h0
      have h0' : ctx.blockHeight.toInt = 0 := h0
      omega

/-- A change that no row depends on. -/
theorem Mirror.congr (h : Mirror db s) (hc : s'.contracts = s.contracts)
    (he : s'.events = s.events) (hm : ∀ k q, q.contractId? = some k → s'.moved q = s.moved q) :
    Mirror db s' := by
  refine ⟨h.ids, ?_, ?_, ?_, ?_⟩
  · intro k c hk
    rw [hc] at hk
    obtain ⟨row, hrow, ht⟩ := h.rows k c hk
    refine ⟨row, hrow, ?_⟩
    have hreg : db.Registers (0, .removeService "") db.providers := .inl rfl
    refine ht.frame hreg (fun q => hm k q)
      (show s'.events = s.events ++ [] by rw [he, List.append_nil]) ?_
    exact nofun
  · intro k row hrow
    rw [hc]
    exact h.only k row hrow
  · rw [he]
    exact h.bonded
  · rw [he, hc]
    exact h.ended

/-- **A close.** -/
theorem Mirror.close (h : Mirror db s) (hc : s.contracts.lookup k = some c)
    {provider : PubKey} {service : String} {client delegate : PubKey}
    (hrec : db.recordMessage (ctx.blockHeight, .closeContract k provider service client delegate) =
      some db') :
    Mirror db' { s with events := s.events ++
      [(ctx.blockHeight, .closeContract k provider service client delegate)] } := by
  obtain ⟨row, hrow, ht⟩ := h.rows k c hc
  obtain ⟨-, hreg⟩ := record_tables hrec
  have hpos := ctx.pos
  have hne : ctx.blockHeight.toInt ≠ 0 := by omega
  have hwritten : db.written?
      (ctx.blockHeight, .closeContract k provider service client delegate) =
      some (k, { row with settlementHeight := ctx.blockHeight.toInt }) := by
    simp [Database.written?, hrow]
  refine h.update (c := c) hrec hwritten rfl rfl ?_ (fun _ _ _ _ => rfl) ?_ ?_
  · intro j
    by_cases hj : j = k
    · rw [if_pos hj, hj]
      exact hc
    · rw [if_neg hj]
  · intro j hj
    exact (Option.some.inj hj).symm
  · obtain ⟨p, hp, hid⟩ := ht.provider
    obtain ⟨p', hp', hid'⟩ := hreg.kept hp
    refine { ht with
      provider := ⟨p', hp', hid'.trans hid⟩, untouched := ?_, settled := fun _ => hne }
    refine ⟨fun h0 => absurd h0 hne, ?_⟩
    intro hall
    exact absurd rfl (hall _ (List.mem_append_right _ (List.mem_singleton_self _)))

/-- **An opening** whose row can be written. -/
theorem Mirror.opened (h : Mirror db s) (hi : Inv cr ctx s) (hb : Booked cr s) {signer : Bytes}
    (ho : Opening cr ctx s signer c) {auth : ContractAuthorization}
    (hopen : (db.opening { openEvent c with authorization := auth }).isSome)
    (hrec : db.recordMessage
      (ctx.blockHeight, .openContract { openEvent c with authorization := auth }) = some db') :
    Mirror db' (s.opened ctx signer c) := by
  have hfresh : s.postings c.id = [] := hb.fresh _ ho.id_eq.ge
  have hnone : s.contracts.lookup c.id = none := by
    rw [ho.id_eq]
    exact hi.lookup_next
  have hdnone : db.contracts.lookup c.id = none := by
    cases hl : db.contracts.lookup c.id with
    | none => rfl
    | some row =>
      obtain ⟨d, hd⟩ := h.only c.id row hl
      cases hnone.symm.trans hd
  obtain ⟨-, hreg⟩ := record_tables hrec
  have hlt := (open_contracts hrec).2 hopen
  set e : EventOpenContract := { openEvent c with authorization := auth } with he
  -- the provider is known, and the row is the one of the event
  obtain ⟨p, hp, hrow⟩ : ∃ p, db.providers.lookup (c.provider, serviceString c.service) = some p ∧
      db.opening e = some (openedRow p.id e) := by
    obtain ⟨row, hrow⟩ := Option.isSome_iff_exists.mp hopen
    obtain ⟨p, hp, hif⟩ := Option.bind_eq_some_iff.mp hrow
    refine ⟨p, hp, ?_⟩
    rw [Option.ite_none_right_eq_some] at hif
    rw [hrow, ← hif.2]
    have hl : db.contracts.lookup e.contractId = none := hdnone
    rw [hl]
  have hwritten : db.written? (ctx.blockHeight, .openContract e) =
      some (c.id, openedRow p.id e) := by
    rw [Database.written?, hrow]
    rfl
  refine h.update (c := c) hrec hwritten (s.opened_events ctx c signer) rfl
    (s.opened_lookup ctx c signer) ?_ ?_ ?_
  · intro j q hj hq
    have hcost : q ≠ .openCost := by
      rintro rfl
      cases hq
    rw [ChainState.moved_opened hcost, if_neg ?_, Int.add_zero]
    rintro rfl
    exact hj (Option.some.inj hq).symm
  · intro j hj
    cases hj
  · obtain ⟨p', hp', hid'⟩ := hreg.kept hp
    have htax : s.moved (.tax c.id) = 0 := ChainState.moved_eq_zero rfl hfresh
    have hdep : s.moved (.deposit c.id) = 0 := ChainState.moved_eq_zero rfl hfresh
    refine ⟨⟨p', hp', hid'⟩, rfl, if_neg ho.wf.delegate_ne, rfl, rfl, ?_, hlt, le_refl _, ?_, ?_, ?_,
      le_refl _, ?_, ?_⟩
    · rw [ChainState.moved_opened (by simp), if_pos rfl, hdep, Int.zero_add]
      rfl
    · rw [ho.nonce_eq]
      rfl
    · exact ho.paid_eq.symm
    · rw [ChainState.moved_opened (by simp), htax]
      simp [openedRow]
    · refine ⟨fun _ => ?_, fun _ => rfl⟩
      intro x hx hx'
      rw [ChainState.opened_events] at hx
      rcases List.mem_append.mp hx with hx | hx
      · obtain ⟨d, hd⟩ := h.ended x hx c.id hx'
        cases hnone.symm.trans hd
      · rw [List.mem_singleton.mp hx] at hx'
        cases hx'
    · intro h0
      exact absurd ho.settlementHeight_eq h0

/-! ## Runs -/

section Following
variable {f : Database → Int64 × Event → Option Database} {Ok : Event → Prop}

theorem Followed.mirror_congr (h : Followed f Ok Mirror s) (hc : s'.contracts = s.contracts)
    (he : s'.events = s.events) (hm : ∀ k q, q.contractId? = some k → s'.moved q = s.moved q) :
    Followed f Ok Mirror s' := by
  intro hok db hrun
  rw [he] at hok hrun
  exact (h hok db hrun).congr hc he hm

variable (hf : ∀ ev db db', Ok ev.2 → f db ev = some db' → Heard db ev db')
include hf

theorem Followed.settle (h : Followed f Ok Mirror s) (hi : Inv cr ctx s)
    (hc : s.contracts.lookup c.id = some c) (nonce : Int64) (isFinal : Bool) :
    Followed f Ok Mirror (s.settle cr ctx (c.raiseNonce nonce) isFinal) := by
  refine h.append (s.settle_events cr ctx (c.raiseNonce nonce) isFinal) ?_
  intro db db' hok hm hev
  exact hm.settle hi hc nonce isFinal (hf _ _ _ hok hev).settle

theorem Followed.expireAll (h : Followed f Ok Mirror s) (hi : Inv cr ctx s) (ids : List ℕ) :
    Followed f Ok Mirror (s.expireAll cr ctx ids) := by
  refine ChainState.expireAll_induct ?_ hi h ids
  intro t c hi hc _ h
  exact (h.settle hf hi hc 0 true).mirror_congr rfl rfl fun _ _ _ => rfl

/-- **One step**, when the row of an opening can be written. -/
theorem followed_step (ho : Outcome cr w a w') (hi : Inv cr w.ctx w.chain)
    (hb : Booked cr w.chain)
    (hopen : ∀ db db' c, OpenedNow cr w a c.id c → (∀ m, a = .msg m →
      w'.accepted = w.accepted ++ [m]) → Mirror db w.chain → Ok (.openContract (openEvent c)) →
      f db (w.ctx.blockHeight, .openContract (openEvent c)) = some db' →
        ∃ auth, db.recordMessage (w.ctx.blockHeight,
          .openContract { openEvent c with authorization := auth }) = some db' ∧
            (db.opening { openEvent c with authorization := auth }).isSome)
    (h : Followed f Ok Mirror w.chain) : Followed f Ok Mirror w'.chain := by
  cases ho with
  | rejected m => exact h
  | unsent src dst coin => exact h
  | provider m s' hdel hm hq hd =>
    obtain ⟨es, hes, -⟩ := hq.events
    obtain ⟨x, rfl⟩ : ∃ x, es = [x] := by
      rcases quiet_cases hm hdel with ⟨_, _, _, -, -, rfl⟩ | ⟨_, _, _, _, -, -, -, -, rfl⟩ |
        ⟨_, -, -, he⟩
      · exact ⟨_, (List.append_cancel_left hes).symm⟩
      · exact ⟨_, (List.append_cancel_left hes).symm⟩
      · exact ⟨_, (List.append_cancel_left (he.symm.trans hes)).symm⟩
    refine h.append hes ?_
    intro db db' hok hm' hev
    exact hm'.quiet hq hes (hf _ _ _ hok hev)
  | opened msg signer service c hsvc hv hc ho =>
    refine h.append (w.chain.opened_events w.ctx c signer) ?_
    intro db db' hok hm hev
    have hnow : OpenedNow cr w (.msg (.openContract msg)) c.id c := by
      refine ⟨msg, service, signer, rfl, ho.id_eq, hsvc, hv, ?_, ho⟩
      rw [ho.id_eq]
      exact hc
    have hacc : ∀ m, Action.msg (.openContract msg) = .msg m →
        w.accepted ++ [.openContract msg] = w.accepted ++ [m] := by
      rintro m ⟨⟩
      rfl
    obtain ⟨auth, hrec, hrow⟩ := hopen db db' c hnow hacc hm hok hev
    exact hm.opened hi hb ho hrow hrec
  | closed msg c t hd hc hid hopen' hby hs ht =>
    have hst := hi.stored _ c hc
    have hrel : Followed f Ok Mirror (w.chain.relisted w.ctx c) := by
      refine h.mirror_congr (ChainState.relisted_contracts c) ?_ ?_
      · unfold ChainState.relisted
        split <;> rfl
      · intro k q hq
        unfold ChainState.relisted
        split <;> rfl
    have hset := hrel.settle hf (hi.relisted c) (ChainState.relisted_lookup w.ctx hc) 0
      c.isSubscription
    rw [hst.wf.raiseNonce_zero, ← ht] at hset
    refine hset.append rfl ?_
    intro db db' hok hm hev
    have hc' : t.contracts.lookup c.id = some (c.settled w.ctx c.isSubscription) := by
      rw [ht, ChainState.settle_lookup, if_pos rfl]
    exact hm.close hc' (hf _ _ _ hok hev).close
  | claimed msg c hc hid hn hset hf' => exact h.settle hf hi hc msg.nonce false
  | sent src dst coin h0 hle =>
    refine h.mirror_congr (ChainState.sent_contracts ..) (ChainState.sent_events ..) ?_
    intro k q hq
    rw [ChainState.moved_sent, if_neg ?_, Int.add_zero]
    rintro rfl
    cases hq
  | ended ctx' hctx => exact h.expireAll hf hi _

end Following

theorem followed_genesis (f : Database → Int64 × Event → Option Database) (Ok : Event → Prop)
    (hg : Genesis w) : Followed f Ok Mirror w.chain := by
  intro _ db hrun
  rw [hg.events] at hrun
  obtain rfl := Option.some.inj hrun
  refine ⟨⟨?_, ?_⟩, ?_, ?_, ?_, ?_⟩
  · intro key p hp
    cases hp
  · intro key key' p p' hp
    cases hp
  · intro k c hc
    rw [hg.contracts] at hc
    cases hc
  · intro k row hrow
    cases hrow
  · rw [hg.events]
    exact nofun
  · rw [hg.events]
    exact nofun

/-! ## Openings that reach the table -/

/-- A bond under these names, of an amount the table can hold. -/
def Event.bonds (provider : PubKey) (service : String) : Event → Bool
  | .bondProvider p n _ bondAbs => p = provider && n = service && 0 ≤ bondAbs && bondAbs < 2 ^ 63
  | _ => false

/-- What an opening needs of the directory: the provider has bonded under the names that the
event of the opening spells, the authorization is one the table knows, and the spender has
opened no other contract with the provider in this block. -/
def Indexable (w : World) (msg : MsgOpenContract) (service : ℕ) : Prop :=
  (∃ x ∈ w.chain.events, Event.bonds msg.provider (serviceString service) x.2 = true) ∧
    ContractAuthorization.isListed msg.authorization = true ∧
    ∀ r ∈ w.chain.contracts.entries, ¬(r.2.provider = msg.provider ∧ r.2.service = service ∧
      r.2.delegate = msg.spender ∧ r.2.height = w.ctx.blockHeight)

instance (w : World) (msg : MsgOpenContract) (service : ℕ) : Decidable (Indexable w msg service) :=
  inferInstanceAs (Decidable (_ ∧ _ ∧ _))

/-- Every opening that is accepted can be indexed. -/
def Indexes (cr : Crypto) (w : World) : Action → Prop
  | .msg (.openContract msg) => (deliver cr w.ctx (.openContract msg) w.chain).isSome →
      ∀ service ∈ w.chain.serviceId? msg.service, Indexable w msg service
  | _ => True

instance (cr : Crypto) (w : World) : ∀ a, Decidable (Indexes cr w a)
  | .msg (.openContract msg) =>
      inferInstanceAs (Decidable ((deliver cr w.ctx (.openContract msg) w.chain).isSome → _))
  | .msg (.bondProvider _) | .msg (.modProvider _) | .msg (.closeContract _)
  | .msg (.claimContractIncome _) | .msg (.registerService _) | .msg (.updateService _)
  | .msg (.removeService _) | .send _ _ _ | .endBlock => isTrue trivial

/-- The row of such an opening can be written. -/
theorem Mirror.opening_isSome (h : Mirror db w.chain) {msg : MsgOpenContract} {service : ℕ}
    {signer : Bytes} (hx : Indexable w msg service)
    (hc : c = newContract w.ctx msg service k msg.provider msg.client msg.spender)
    (ho : Opening cr w.ctx w.chain signer c) : (db.opening (openEvent c)).isSome := by
  obtain ⟨⟨⟨t, e⟩, hmem, he⟩, hauth, halone⟩ := hx
  have hprov : c.provider = msg.provider := by rw [hc]; rfl
  have hsvc : c.service = service := by rw [hc]; rfl
  have hdel : c.delegate = msg.spender := by rw [hc]; rfl
  -- the provider has a row
  obtain ⟨p, hp⟩ : ∃ p, db.providers.lookup (c.provider, serviceString c.service) = some p := by
    rw [hprov, hsvc]
    cases e <;> simp only [Event.bonds, Bool.and_eq_true, decide_eq_true_eq, Bool.false_eq_true] at he
    obtain ⟨⟨⟨rfl, rfl⟩, h0⟩, hb⟩ := he
    exact h.bonded t _ _ _ _ hmem (plain_serviceString service).passes h0 hb
  have hvalid : (openedRow p.id (openEvent c)).valid = true := by
    have hdelegate : (openedRow p.id (openEvent c)).delegatePubkey = c.delegate :=
      if_neg ho.wf.delegate_ne
    have htype : ContractType.isListed c.type = true := by
      rcases ho.wf.known with ht | ht <;> rw [ht] <;> rfl
    have hlisted : ContractAuthorization.isListed c.authorization = true := by
      rw [hc]
      exact hauth
    have hheight := ho.wf.height_pos
    simp only [ContractRow.valid, hdelegate, Bool.and_eq_true, decide_eq_true_eq]
    exact ⟨⟨⟨⟨ho.wf.delegate_ne, ho.wf.client_ne⟩, hheight⟩, htype⟩, hlisted⟩
  -- no other contract has its place
  have htaken : db.taken c.id (openedRow p.id (openEvent c)) = false := by
    refine List.any_eq_false.mpr ?_
    rintro ⟨j, row⟩ hj htaken
    simp only [Bool.and_eq_true, decide_eq_true_eq] at htaken
    obtain ⟨d, hd⟩ := h.only j row (AList.mem_entries.mp hj)
    obtain ⟨row', hrow', ht⟩ := h.rows j d hd
    obtain rfl : row = row' := Option.some.inj ((AList.mem_entries.mp hj).symm.trans hrow')
    obtain ⟨q, hq, hqid⟩ := ht.provider
    have hslot : row.slot = (p.id, c.delegate, c.height.toInt) := by
      rw [htaken.2, ContractRow.slot]
      refine Prod.ext rfl (Prod.ext ?_ rfl)
      exact if_neg ho.wf.delegate_ne
    have hid : row.providerId = p.id := congrArg Prod.fst hslot
    have hdelegate : row.delegatePubkey = c.delegate := congrArg (fun x => x.2.1) hslot
    have hheight : row.height = c.height.toInt := congrArg (fun x => x.2.2) hslot
    have hnames := h.ids.injective _ _ q p hq hp (hqid.trans hid)
    refine halone ⟨j, d⟩ (AList.mem_entries.mpr hd) ⟨?_, ?_, ?_, ?_⟩
    · rw [← hprov]
      exact congrArg Prod.fst hnames
    · rw [← hsvc]
      exact serviceString_injective (congrArg Prod.snd hnames)
    · rw [← hdel, ← hdelegate]
      exact ht.delegate.symm
    · rw [← ho.height_eq]
      exact Int64.toInt_inj.mp (ht.height.symm.trans hheight)
  have hp' : db.providers.lookup ((openEvent c).provider, (openEvent c).service) = some p := hp
  have htaken' : db.taken (openEvent c).contractId (openedRow p.id (openEvent c)) = false := htaken
  simp [Database.opening, hp', hvalid, htaken']

/-- The table of contracts is the chain's: a row for every contract, a copy of it, and no
other rows. -/
def ContractsMirrored (db : Database) (s : ChainState) : Prop :=
  (∀ k c, s.contracts.lookup k = some c →
    ∃ row, db.contracts.lookup k = some row ∧ Copies db s k c row) ∧
  ∀ k row, db.contracts.lookup k = some row → ∃ c, s.contracts.lookup k = some c

/-- **The directory mirrors every contract** of a run each opening of which it can index; the
numbers of the events are of their types. -/
theorem contracts_mirrored (b : Bech32 cr) (hg : Genesis w) {actions : List Action}
    (hrun : Runs.run (step cr) w actions = some w')
    (hidx : Runs.Guarded (step cr) (Indexes cr) w actions)
    (hfits : ∀ x ∈ w'.chain.events, Fits x.2)
    (hdb : Database.consume b {} w'.chain.events = some db) : ContractsMirrored db w'.chain := by
  have hall : Inv cr w'.ctx w'.chain ∧ Booked cr w'.chain ∧
      Followed (Database.record b) (fun e => Genuine cr e ∧ Fits e) Mirror w'.chain := by
    refine Runs.run_induct_of_guarded (P := fun v => Inv cr v.ctx v.chain ∧ Booked cr v.chain ∧
      Followed (Database.record b) (fun e => Genuine cr e ∧ Fits e) Mirror v.chain) ?_
      ⟨hg.inv, hg.booked, followed_genesis _ _ hg⟩ hidx hrun
    rintro v a v' ⟨hi, hb, hf⟩ hguard hstep
    have ho := step_outcome hi hstep
    refine ⟨ho.inv hi, ho.booked hi hb,
      followed_step (fun _ _ _ hok => heard_record hok.1 hok.2) ho hi hb ?_ hf⟩
    rintro db db' c ⟨msg, service, signer, rfl, -, hsvc, -, hc, hop⟩ hacc hm hok hev
    have hdel := deliver_isSome hstep (hacc _ rfl)
    have hindex := hguard hdel service hsvc
    -- the authorization is one that the decoder takes back
    have hintact : Intact (.openContract (openEvent c)) := by
      have hauth := hindex.2.1
      show c.authorization = .strict ∨ c.authorization = .openAuth
      rw [hc]
      show msg.authorization = .strict ∨ msg.authorization = .openAuth
      cases hm' : msg.authorization with
      | strict => exact .inl rfl
      | openAuth => exact .inr rfl
      | unknown n =>
        rw [hm'] at hauth
        cases hauth
    refine ⟨c.authorization, ?_, hm.opening_isSome hindex hc hop⟩
    rw [record_of_decoded (decoded_of_intact b hok.1 hok.2 hintact)] at hev
    exact hev
  have hgenuine := (reachable_vouched hg hrun).events
  have hm := hall.2.2 (fun x hx => ⟨hgenuine x hx, hfits x hx⟩) db hdb
  refine ⟨?_, hm.only⟩
  intro k c hc
  obtain ⟨row, hrow, ht⟩ := hm.rows k c hc
  exact ⟨row, hrow, ht.copies hm.ids⟩

namespace Sample
open Arkeo.Sample

/-- A subscription and, in the next block, a pay-as-you-go contract on which three calls are
claimed. -/
def claimed : List Action :=
  setup ++
    [.msg (.openContract (openMsg .subscription 10)), .endBlock,
     .msg (.openContract (openMsg .payAsYouGo 100)),
     .msg (.claimContractIncome
      { creator := provider.account, contractId := 2, nonce := 3, signature := signature })]

/-- The world after it, written out. -/
def claimedWorld : World where
  ctx := { blockHeight := 2, chainID := "arkeo", pos := by decide, fits := by decide }
  chain :=
    let subscription := freshContract .subscription 10 1
    let payAsYouGo := { freshContract .payAsYouGo 100 2 with height := 2 }
    { offering.chain with
      contracts := AList.insert 2 { payAsYouGo with nonce := 3, paid := 30 }
        (AList.insert 1 subscription ∅)
      expirationSets := AList.insert 4 ⟨4, [2]⟩ (AList.insert 2 ⟨2, [1]⟩ ∅)
      userSets := contracted.chain.userSets
      nextContractId := 3
      bank := AList.insert (.module .reserve, denom) 40000003
        (AList.insert (.module .contract, denom) 80
        (AList.insert (.user provider.addr, denom) 900000027
        (AList.insert (.user client.addr, denom) 959999890
        (AList.insert (.module .provider, denom) 100000000 ∅))))
      journal := contracted.chain.journal ++
        [⟨.module .contract, .user provider.addr, ⟨denom, 27⟩, .income 2⟩,
         ⟨.module .contract, .module .reserve, ⟨denom, 3⟩, .tax 2⟩]
      events := offering.chain.events ++
        [freshEvent subscription, freshEvent payAsYouGo,
         (2, .settleContract
          { provider := provider.pubKey, contractId := 2, service := service
            client := client.pubKey, delegate := client.pubKey, type := .payAsYouGo, nonce := 3
            height := 2, paid := 30, reserve := 3 })] }
  accepted := claimed.filterMap isMsg

theorem claimed_run : Runs.run (step crypto) genesis claimed = some claimedWorld := by
  rw [claimed, Runs.run_append_of setup_run]
  exact run_eq (by decide +kernel)

theorem claimed_mirrored : ∃ w db, Runs.run (step crypto) genesis claimed = some w ∧
    Database.consume bech32 {} w.chain.events = some db ∧ (w.chain.contracts.lookup 2).isSome ∧
    ContractsMirrored db w.chain := by
  have h : ((Runs.run (step crypto) genesis claimed).bind fun w =>
      (Database.recordMessages {} w.chain.events).map fun _ =>
        (decide (∀ x ∈ w.chain.events, Fits x.2 ∧ Intact x.2),
          (w.chain.contracts.lookup 2).isSome)) = some (true, true) := by
    rw [claimed_run]
    decide +kernel
  have hidx : Runs.Guarded (step crypto) (Indexes crypto) genesis claimed := by
    refine (Runs.guarded_of_mem (fun w a ha => ?_) _).append setup_run (by decide +kernel)
    simp only [setup, List.mem_cons, List.not_mem_nil, or_false] at ha
    obtain rfl | rfl := ha <;> trivial
  obtain ⟨w, hw, h⟩ := Option.bind_eq_some_iff.mp h
  obtain ⟨db, hdb, h⟩ := Option.map_eq_some_iff.mp h
  obtain ⟨hd, hsome⟩ := Prod.mk.inj h
  have hall := of_decide_eq_true hd
  rw [← record_of_intact bech32 (reachable_intact genesis_ok hw hall)] at hdb
  exact ⟨w, db, hw, hdb, hsome,
    contracts_mirrored bech32 genesis_ok hw hidx (fun x hx => (hall x hx).1) hdb⟩

/-- Two pay-as-you-go contracts of one spender in one block: the second has no row. -/
theorem second_unlisted : ∃ w db, Runs.run (step crypto) genesis (setup ++
      [.msg (.openContract (openMsg .payAsYouGo 100)),
       .msg (.openContract (openMsg .payAsYouGo 100))]) = some w ∧
    Database.consume bech32 {} w.chain.events = some db ∧ ¬ContractsMirrored db w.chain := by
  have h : ((Runs.run (step crypto) genesis (setup ++
      [.msg (.openContract (openMsg .payAsYouGo 100)),
       .msg (.openContract (openMsg .payAsYouGo 100))])).bind fun w =>
        (Database.recordMessages {} w.chain.events).map fun db =>
          (decide (∀ x ∈ w.chain.events, Fits x.2 ∧ Intact x.2),
            (w.chain.contracts.lookup 2).isSome, (db.contracts.lookup 2).isSome)) =
      some (true, true, false) := by
    rw [Runs.run_append_of setup_run]
    decide +kernel
  obtain ⟨w, hw, h⟩ := Option.bind_eq_some_iff.mp h
  obtain ⟨db, hdb, h⟩ := Option.map_eq_some_iff.mp h
  simp only [Prod.mk.injEq] at h
  rw [← record_of_intact bech32 (reachable_intact genesis_ok hw (of_decide_eq_true h.1))] at hdb
  refine ⟨w, db, hw, hdb, ?_⟩
  rintro ⟨hrows, -⟩
  obtain ⟨c, hc⟩ := Option.isSome_iff_exists.mp h.2.1
  obtain ⟨row, hrow, -⟩ := hrows 2 c hc
  rw [hrow] at h
  cases h.2.2

end Sample

end Arkeo.Directory
