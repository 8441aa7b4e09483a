import Arkeo.Directory.Spec
import Arkeo.Directory.Transparency

/-! # The indexer

An event of the chain reaches its handler by way of the decoder: the handler is given the
message that `parseEventToConcreteType` makes of the event's attributes, and an event that
cannot be read fails before there is any statement (`handleAbciEvent`).

Of an event of the chain the decoder changes at most what a sender put into it
(`decoded_altered`): the name of the service of a bond, the metadata URI and the status of
a provider, and the authorization of a contract.  What is intact is handed on as it is
(`decoded_of_intact`), and so are the settlements and the closes.

That the indexer has processed its events can be read in three ways: with the errors of the
events passed over, as it is built (`Database.record`); with no write that fails
(`Database.write`); and with no error at all (`Database.handle`).
-/
namespace Arkeo.Directory
open Exec

variable {cr : Crypto} {b : Bech32 cr} {db db' : Database} {ev : Int64 × Event} {e e' : Event}
  {s s' : ChainState}

/-! ## What a handler is given -/

/-- What the decoder makes of the event that the SDK makes of a message.  It is the same in any
order of the attributes, and with those that the SDK adds (`Emitted.parse_eq`). -/
def Message.returned {α : Type} (M : Message α) (e : α) : Option α :=
  parseEventToConcreteType M (M.typedEvent e)

/-- The message that the decoder returns for an event.  The settlement height of an opening,
which the chain never sets, is returned as the zero it is; the events of the registry are not
decoded. -/
def decoded (b : Bech32 cr) : Event → Option Event
  | .bondProvider provider service bondRel bondAbs =>
      ((bondProviderMessage cr).returned ⟨provider, service, bondRel, bondAbs⟩).map fun e =>
        .bondProvider e.provider e.service e.bondRel e.bondAbs
  | .modProvider e => ((modProviderMessage b).returned e).map .modProvider
  | .openContract e =>
      ((openContractMessage cr).returned ⟨e, 0⟩).map fun e => .openContract e.toEventOpenContract
  | .closeContract contractId provider service client delegate =>
      ((closeContractMessage cr).returned ⟨contractId, provider, service, client, delegate⟩).map
        fun e => .closeContract e.contractId e.provider e.service e.client e.delegate
  | .settleContract e => ((settleContractMessage cr).returned e).map .settleContract
  | .registerService e => some (.registerService e)
  | .updateService e => some (.updateService e)
  | .removeService e => some (.removeService e)

/-- `handleAbciEvent`. -/
def handleAbciEvent (b : Bech32 cr) (ev : Int64 × Event) : DbM Unit := do
  let e ← ofOption (decoded b ev.2) (.err .decode)
  handleMessage (ev.1, e)

/-- The database after one event; an error is logged and passed over, and `none` is a
panic. -/
def Database.record (b : Bech32 cr) (db : Database) (ev : Int64 × Event) : Option Database :=
  committed (logged (handleAbciEvent b ev)) db

/-- The database after one event that is handled without an error. -/
def Database.handle (b : Bech32 cr) (db : Database) (ev : Int64 × Event) : Option Database :=
  committed (handleAbciEvent b ev) db

/-- The database after one event none of whose writes fails: one that cannot be read is passed
over before there is any. -/
def Database.write (b : Bech32 cr) (db : Database) (ev : Int64 × Event) : Option Database :=
  if (decoded b ev.2).isSome then db.handle b ev else db.record b ev

/-- `consumeHistoricalBlock`, on the events of one block or of several. -/
def Database.consume (b : Bech32 cr) (db : Database) (events : List (Int64 × Event)) :
    Option Database :=
  Runs.run (Database.record b) db events

theorem handleAbciEvent_of_decoded (h : decoded b ev.2 = some e) :
    handleAbciEvent b ev = handleMessage (ev.1, e) := by
  unfold handleAbciEvent
  rw [h]
  rfl

theorem handle_of_decoded (h : decoded b ev.2 = some e) :
    db.handle b ev = db.writeMessage (ev.1, e) := by
  rw [Database.handle, handleAbciEvent_of_decoded h]
  rfl

theorem handle_some : db.handle b ev = some db' ↔
    ∃ e, decoded b ev.2 = some e ∧ db.writeMessage (ev.1, e) = some db' := by
  simp only [Database.handle, handleAbciEvent, committed_some, ofOption_bind_ok, write_some]
  constructor
  · rintro ⟨⟨⟩, e, he, h⟩
    exact ⟨e, he, h⟩
  · rintro ⟨e, he, h⟩
    exact ⟨(), e, he, h⟩

/-- Of an event that is read, what is recorded is the message. -/
theorem record_of_decoded (h : decoded b ev.2 = some e) :
    db.record b ev = db.recordMessage (ev.1, e) := by
  rw [Database.record, handleAbciEvent_of_decoded h]
  rfl

/-- An event that cannot be read is passed over. -/
theorem record_of_unread (h : decoded b ev.2 = none) : db.record b ev = some db := by
  refine committed_some.mpr ⟨(), logged_ok.mpr (.inr ⟨.decode, ?_⟩)⟩
  unfold handleAbciEvent
  rw [h]
  rfl

theorem record_some : db.record b ev = some db' ↔
    (decoded b ev.2 = none ∧ db' = db) ∨
      ∃ e, decoded b ev.2 = some e ∧ db.recordMessage (ev.1, e) = some db' := by
  cases he : decoded b ev.2 with
  | none =>
    rw [record_of_unread he, Option.some.injEq]
    constructor
    · exact fun h => .inl ⟨rfl, h.symm⟩
    · rintro (⟨-, h⟩ | ⟨e, hsome, -⟩)
      · exact h.symm
      · cases hsome
  | some e =>
    rw [record_of_decoded he]
    constructor
    · exact fun h => .inr ⟨e, rfl, h⟩
    · rintro (⟨hnone, -⟩ | ⟨e', hsome, h⟩)
      · cases hnone
      · obtain rfl := Option.some.inj hsome
        exact h

theorem write_some_iff : db.write b ev = some db' ↔
    (decoded b ev.2 = none ∧ db' = db) ∨
      ∃ e, decoded b ev.2 = some e ∧ db.writeMessage (ev.1, e) = some db' := by
  unfold Database.write
  cases he : decoded b ev.2 with
  | none =>
    rw [Option.isSome_none, if_neg Bool.false_ne_true, record_some, he]
    refine or_congr_right ⟨?_, ?_⟩
    · rintro ⟨e, hsome, -⟩
      cases hsome
    · rintro ⟨e, hsome, -⟩
      cases hsome
  | some e =>
    rw [Option.isSome_some, if_pos rfl, handle_some, he]
    refine ⟨.inr, ?_⟩
    rintro (⟨hnone, -⟩ | h)
    · cases hnone
    · exact h

/-! ## What the decoder changes -/

/-- What the decoder can make of an event of the chain. -/
inductive Altered : Event → Event → Prop
  | same (e : Event) : Altered e e
  | bond (provider : PubKey) (service service' : String) (bondRel bondAbs : ℤ)
      (h : ¬Passes service) :
      Altered (.bondProvider provider service bondRel bondAbs)
        (.bondProvider provider service' bondRel bondAbs)
  | settings (x : EventModProvider) (uri : String) (status : ProviderStatus)
      (h : x.status = .offline ∨ x.status = .online → status = x.status) :
      Altered (.modProvider x) (.modProvider { x with metadataUri := uri, status := status })
  | opening (x : EventOpenContract) (auth : ContractAuthorization) :
      Altered (.openContract x) (.openContract { x with authorization := auth })

theorem Altered.isQuiet (h : Altered e e') : e'.isQuiet = e.isQuiet := by
  cases h <;> rfl

/-- A message is about the contract that its event is about. -/
theorem Altered.contractId? (h : Altered e e') : e'.contractId? = e.contractId? := by
  cases h <;> rfl

/-- The message of an opening. -/
theorem Altered.openContract {x : EventOpenContract} (h : Altered (.openContract x) e) :
    ∃ auth, e = .openContract { x with authorization := auth } := by
  cases h with
  | same => exact ⟨x.authorization, rfl⟩
  | opening _ auth => exact ⟨auth, rfl⟩

/-- The fields of a message that is returned. -/
theorem returned_fields {α : Type} {M : Message α} {x y : α} (h : M.returned x = some y) :
    M.fields.Forall fun f => f.codec.Returns (f.get x) (f.get y) :=
  List.forall_iff_forall_mem.mpr ((parseEventToConcreteType_eq (Emitted.typedEvent M x)).mp h)

theorem returned_bondProvider {x y : EventBondProvider}
    (hg : cr.newPubKey x.provider = some x.provider) (b : Bech32 cr)
    (h : (bondProviderMessage cr).returned x = some y) :
    y = { x with service := y.service } ∧ (Passes x.service → y.service = x.service) := by
  obtain ⟨hprovider, hservice, hrel, habs⟩ := returned_fields h
  obtain ⟨provider, service, bondRel, bondAbs⟩ := y
  obtain rfl : provider = x.provider := (survives_pubKey b hg).steady _ hprovider
  obtain rfl : bondRel = x.bondRel := steady_int _ _ hrel
  obtain rfl : bondAbs = x.bondAbs := steady_int _ _ habs
  exact ⟨rfl, fun hp => (survives_string.mpr hp).steady _ hservice⟩

theorem returned_modProvider {x y : EventModProvider} (hg : Genuine cr (.modProvider x))
    (h : (modProviderMessage b).returned x = some y) :
    y = { x with metadataUri := y.metadataUri, status := y.status } ∧
      (x.status = .offline ∨ x.status = .online → y.status = x.status) := by
  obtain ⟨⟨s, hs⟩, hkey, hname⟩ := hg
  obtain ⟨hcreator, hprovider, hservice, -, hnonce, hstatus, hmin, hmax, hsub, hpay, hbond,
    hsettlement⟩ := returned_fields h
  obtain ⟨creator, provider, service, uri, nonce, status, minDuration, maxDuration, sub, pay,
    bond, settlement⟩ := y
  obtain rfl : creator = x.creator := (survives_accAddress b hs).steady _ hcreator
  obtain rfl : provider = x.provider := (survives_pubKey b hkey).steady _ hprovider
  obtain rfl : service = x.service := (survives_service hname).steady _ hservice
  obtain rfl : nonce = x.metadataNonce := steady_uint64 _ _ hnonce
  obtain rfl : minDuration = x.minContractDuration := (survives_int64 _).steady _ hmin
  obtain rfl : maxDuration = x.maxContractDuration := (survives_int64 _).steady _ hmax
  obtain rfl : sub = x.subscriptionRate := steady_coins _ _ hsub
  obtain rfl : pay = x.payAsYouGoRate := steady_coins _ _ hpay
  obtain rfl : bond = x.bond := steady_int _ _ hbond
  obtain rfl : settlement = x.settlementDuration := (survives_int64 _).steady _ hsettlement
  exact ⟨rfl, fun hs => (survives_providerStatus.mpr hs).steady _ hstatus⟩

theorem returned_openContract {x y : OpenContract}
    (hg : Genuine cr (.openContract x.toEventOpenContract)) (b : Bech32 cr)
    (h : (openContractMessage cr).returned x = some y) :
    y = { x with authorization := y.authorization } := by
  obtain ⟨hkeys, hname, hlisted⟩ := hg
  obtain ⟨hprovider, hid, hservice, hclient, hdelegate, htype, hheight, hduration, hrate, hcost,
    hdeposit, hsettlement, -, hqueries, hended⟩ := returned_fields h
  obtain ⟨⟨provider, contractId, service, client, delegate, type, height, duration, rate, cost,
    deposit, settlement, auth, queries⟩, ended⟩ := y
  obtain rfl : provider = x.provider := (survives_pubKey b hkeys.provider).steady _ hprovider
  obtain rfl : contractId = x.contractId := steady_uint64 _ _ hid
  obtain rfl : service = x.service := (survives_service hname).steady _ hservice
  obtain rfl : client = x.client := (survives_pubKey b hkeys.client).steady _ hclient
  obtain rfl : delegate = x.delegate := (survives_pubKey b hkeys.delegate).steady _ hdelegate
  obtain rfl : type = x.type := (survives_contractType.mpr hlisted).steady _ htype
  obtain rfl : height = x.height := (survives_int64 _).steady _ hheight
  obtain rfl : duration = x.duration := (survives_int64 _).steady _ hduration
  obtain rfl : rate = x.rate := steady_coin _ _ hrate
  obtain rfl : cost = x.openCost := (survives_int64 _).steady _ hcost
  obtain rfl : deposit = x.deposit := steady_int _ _ hdeposit
  obtain rfl : settlement = x.settlementDuration := (survives_int64 _).steady _ hsettlement
  obtain rfl : queries = x.queriesPerMinute := (survives_int64 _).steady _ hqueries
  obtain rfl : ended = x.settlementHeight := (survives_int64 _).steady _ hended
  rfl

theorem returned_closeContract {x y : EventCloseContract}
    (hg : Genuine cr (.closeContract x.contractId x.provider x.service x.client x.delegate))
    (b : Bech32 cr) (h : (closeContractMessage cr).returned x = some y) : y = x := by
  obtain ⟨hkeys, hname⟩ := hg
  obtain ⟨hid, hprovider, hservice, hclient, hdelegate⟩ := returned_fields h
  obtain ⟨contractId, provider, service, client, delegate⟩ := y
  obtain rfl : contractId = x.contractId := steady_uint64 _ _ hid
  obtain rfl : provider = x.provider := (survives_pubKey b hkeys.provider).steady _ hprovider
  obtain rfl : service = x.service := (survives_service hname).steady _ hservice
  obtain rfl : client = x.client := (survives_pubKey b hkeys.client).steady _ hclient
  obtain rfl : delegate = x.delegate := (survives_pubKey b hkeys.delegate).steady _ hdelegate
  rfl

theorem returned_settleContract {x y : EventSettleContract} (hg : Genuine cr (.settleContract x))
    (b : Bech32 cr) (h : (settleContractMessage cr).returned x = some y) : y = x := by
  obtain ⟨hkeys, hname, hlisted⟩ := hg
  obtain ⟨hprovider, hid, hservice, hclient, hdelegate, htype, hnonce, hheight, hpaid,
    hreserve⟩ := returned_fields h
  obtain ⟨provider, contractId, service, client, delegate, type, nonce, height, paid,
    reserve⟩ := y
  obtain rfl : provider = x.provider := (survives_pubKey b hkeys.provider).steady _ hprovider
  obtain rfl : contractId = x.contractId := steady_uint64 _ _ hid
  obtain rfl : service = x.service := (survives_service hname).steady _ hservice
  obtain rfl : client = x.client := (survives_pubKey b hkeys.client).steady _ hclient
  obtain rfl : delegate = x.delegate := (survives_pubKey b hkeys.delegate).steady _ hdelegate
  obtain rfl : type = x.type := (survives_contractType.mpr hlisted).steady _ htype
  obtain rfl : nonce = x.nonce := (survives_int64 _).steady _ hnonce
  obtain rfl : height = x.height := (survives_int64 _).steady _ hheight
  obtain rfl : paid = x.paid := steady_int _ _ hpaid
  obtain rfl : reserve = x.reserve := steady_int _ _ hreserve
  rfl

/-- **What the decoder makes of an event of the chain**: nothing, or the event with at most
what a sender put into it changed. -/
theorem decoded_altered (hg : Genuine cr e) (h : decoded b e = some e') : Altered e e' := by
  cases e with
  | bondProvider provider service bondRel bondAbs =>
    rw [decoded, Option.map_eq_some_iff] at h
    obtain ⟨m, hm, rfl⟩ := h
    obtain ⟨hmessage, hservice⟩ := returned_bondProvider
      (x := ⟨provider, service, bondRel, bondAbs⟩) hg b hm
    rw [hmessage]
    by_cases hp : Passes service
    · rw [hservice hp]
      exact .same _
    · exact .bond _ _ _ _ _ hp
  | modProvider x =>
    rw [decoded, Option.map_eq_some_iff] at h
    obtain ⟨m, hm, rfl⟩ := h
    obtain ⟨hmessage, hstatus⟩ := returned_modProvider hg hm
    rw [hmessage]
    exact .settings _ _ _ hstatus
  | openContract x =>
    rw [decoded, Option.map_eq_some_iff] at h
    obtain ⟨m, hm, rfl⟩ := h
    rw [returned_openContract (x := ⟨x, 0⟩) hg b hm]
    exact .opening _ _
  | closeContract k provider service client delegate =>
    rw [decoded, Option.map_eq_some_iff] at h
    obtain ⟨m, hm, rfl⟩ := h
    rw [returned_closeContract (x := ⟨k, provider, service, client, delegate⟩) hg b hm]
    exact .same _
  | settleContract x =>
    rw [decoded, Option.map_eq_some_iff] at h
    obtain ⟨m, hm, rfl⟩ := h
    rw [returned_settleContract hg b hm]
    exact .same _
  | registerService svc =>
    obtain rfl := Option.some.inj h
    exact .same _
  | updateService svc =>
    obtain rfl := Option.some.inj h
    exact .same _
  | removeService name =>
    obtain rfl := Option.some.inj h
    exact .same _

/-- **An intact event is handed on as it is.** -/
theorem decoded_of_intact (b : Bech32 cr) (hg : Genuine cr e) (hf : Fits e) (hi : Intact e) :
    decoded b e = some e := by
  have hall : ∀ t, typed? b e = some t → t.message.returned t.value = some t.value :=
    fun t ht => (parse_typed_iff b hg hf ht (Emitted.typedEvent _ _)).mpr hi
  cases e with
  | bondProvider provider service bondRel bondAbs =>
    rw [decoded, hall _ rfl]
    rfl
  | modProvider x =>
    rw [decoded, hall ⟨modProviderMessage b, x⟩ rfl]
    rfl
  | openContract x =>
    rw [decoded, hall ⟨openContractMessage cr, ⟨x, 0⟩⟩ rfl]
    rfl
  | closeContract k provider service client delegate =>
    rw [decoded, hall _ rfl]
    rfl
  | settleContract x =>
    rw [decoded, hall ⟨settleContractMessage cr, x⟩ rfl]
    rfl
  | registerService svc => rfl
  | updateService svc => rfl
  | removeService name => rfl

/-- Settings are read whatever their URI, unless it begins as an array. -/
theorem decoded_modProvider_isSome {x : EventModProvider} (hg : Genuine cr (.modProvider x))
    (hf : Fits (.modProvider x)) (hstatus : x.status = .offline ∨ x.status = .online)
    (huri : x.metadataUri.toList.head? ≠ some '[') :
    (decoded b (.modProvider x)).isSome = true := by
  obtain ⟨uri, hread⟩ := returns_string huri
  obtain ⟨⟨s, hcreator⟩, hprovider, hservice⟩ := hg
  obtain ⟨hnonce, hbond, hsub, hpay⟩ := hf
  have hreturned : (modProviderMessage b).returned x = some { x with metadataUri := uri } := by
    refine (parseEventToConcreteType_eq (Emitted.typedEvent _ _)).mpr
      (List.forall_iff_forall_mem.mp ?_)
    exact ⟨survives_accAddress b hcreator, survives_pubKey b hprovider,
      survives_service hservice, hread, survives_uint64 hnonce,
      survives_providerStatus.mpr hstatus, survives_int64 _, survives_int64 _,
      survives_coins hsub, survives_coins hpay, survives_int hbond, survives_int64 _⟩
  rw [decoded, hreturned]
  rfl

/-! ## What an event does -/

/-- What an event of the chain does to the database: what its message does as the decoder makes
it, or nothing, and that only where the event is not intact. -/
def Heard (db : Database) (ev : Int64 × Event) (db' : Database) : Prop :=
  (¬Intact ev.2 ∧ db' = db) ∨ ∃ e, Altered ev.2 e ∧ db.recordMessage (ev.1, e) = some db'

theorem heard_record (hg : Genuine cr ev.2) (hf : Fits ev.2) (h : db.record b ev = some db') :
    Heard db ev db' := by
  rcases record_some.mp h with ⟨hnone, rfl⟩ | ⟨e, he, hrec⟩
  · refine .inl ⟨?_, rfl⟩
    intro hi
    rw [decoded_of_intact b hg hf hi] at hnone
    cases hnone
  · exact .inr ⟨e, decoded_altered hg he, hrec⟩

theorem heard_handle (hg : Genuine cr ev.2) (h : db.handle b ev = some db') : Heard db ev db' := by
  obtain ⟨e, he, hw⟩ := handle_some.mp h
  exact .inr ⟨e, decoded_altered hg he, record_of_write hw⟩

namespace Heard

theorem settle {t : Int64} {x : EventSettleContract} (h : Heard db (t, .settleContract x) db') :
    db.recordMessage (t, .settleContract x) = some db' := by
  rcases h with ⟨hnot, -⟩ | ⟨e, ha, hrec⟩
  · exact absurd trivial hnot
  · cases ha
    exact hrec

theorem close {t : Int64} {k : ℕ} {provider : PubKey} {service : String}
    {client delegate : PubKey}
    (h : Heard db (t, .closeContract k provider service client delegate) db') :
    db.recordMessage (t, .closeContract k provider service client delegate) = some db' := by
  rcases h with ⟨hnot, -⟩ | ⟨e, ha, hrec⟩
  · exact absurd trivial hnot
  · cases ha
    exact hrec

/-- An event that is about no contract leaves the contracts alone, and the bonds whose names
pass have rows. -/
theorem quiet (h : Heard db ev db') (hev : ev.2.isQuiet = true) :
    db'.contracts = db.contracts ∧ (∃ m, db.Registers m db'.providers) ∧
      ∀ provider service bondRel bondAbs,
        ev.2 = .bondProvider provider service bondRel bondAbs → Passes service → 0 ≤ bondAbs →
          bondAbs < 2 ^ 63 → ∃ p, db'.providers.lookup (provider, service) = some p := by
  rcases h with ⟨hnot, rfl⟩ | ⟨e, ha, hrec⟩
  · refine ⟨rfl, ⟨ev, .inl rfl⟩, ?_⟩
    intro provider service bondRel bondAbs he hp
    rw [he] at hnot
    exact absurd hp hnot
  · obtain ⟨hcon, hreg⟩ := record_tables hrec
    have hquiet : e.isQuiet = true := ha.isQuiet.trans hev
    have hnone : db.written? (ev.1, e) = none := by
      cases e <;> first | rfl | cases hquiet
    rw [hnone] at hcon
    refine ⟨hcon, ⟨_, hreg⟩, ?_⟩
    intro provider service bondRel bondAbs he hp h0 hlt
    rw [he] at ha
    cases ha with
    | same => exact bond_row hrec h0 hlt
    | bond _ _ _ _ _ hnot => exact absurd hp hnot

end Heard

/-- The messages that the decoder makes of events. -/
def messages (b : Bech32 cr) (events : List (Int64 × Event)) : List (Int64 × Event) :=
  events.filterMap fun ev => (decoded b ev.2).map fun e => (ev.1, e)

/-- A message is what the decoder makes of an event of its block. -/
theorem mem_messages {events : List (Int64 × Event)} {m : Int64 × Event} :
    m ∈ messages b events ↔ ∃ ev ∈ events, decoded b ev.2 = some m.2 ∧ m.1 = ev.1 := by
  unfold messages
  rw [List.mem_filterMap]
  refine exists_congr fun ev => and_congr_right fun _ => ?_
  rw [Option.map_eq_some_iff]
  constructor
  · rintro ⟨e, he, rfl⟩
    exact ⟨he, rfl⟩
  · rintro ⟨he, ht⟩
    exact ⟨m.2, he, Prod.ext ht.symm rfl⟩

theorem consume_eq (b : Bech32 cr) (db : Database) (events : List (Int64 × Event)) :
    db.consume b events = db.recordMessages (messages b events) := by
  induction events generalizing db with
  | nil => rfl
  | cons ev events ih =>
    cases he : decoded b ev.2 with
    | none =>
      have hmessages : messages b (ev :: events) = messages b events := by
        rw [messages, List.filterMap_cons, he]
        rfl
      rw [hmessages, ← ih, Database.consume, Runs.run, record_of_unread he]
      rfl
    | some e =>
      have hmessages : messages b (ev :: events) = (ev.1, e) :: messages b events := by
        rw [messages, List.filterMap_cons, he]
        rfl
      rw [hmessages, Database.consume, Runs.run, record_of_decoded he, Database.recordMessages,
        Runs.run]
      exact congrArg _ (funext fun d => ih d)

/-! ## Intact events -/

section Intact
variable {events : List (Int64 × Event)}

/-- The events of a run are handed on as they are where what their senders put into them
passes. -/
theorem reachable_intact {w w' : World} (hg : Genesis w) {actions : List Action}
    (hrun : Runs.run (step cr) w actions = some w')
    (h : ∀ x ∈ w'.chain.events, Fits x.2 ∧ Intact x.2) :
    ∀ x ∈ w'.chain.events, Genuine cr x.2 ∧ Fits x.2 ∧ Intact x.2 :=
  fun x hx => ⟨(reachable_vouched hg hrun).events x hx, h x hx⟩

/-- What is done with an event that is handed on as it is, is done with the event. -/
theorem run_of_intact {f g : Database → Int64 × Event → Option Database} (b : Bech32 cr)
    (hfg : ∀ db x, decoded b x.2 = some x.2 → f db x = g db x)
    (h : ∀ x ∈ events, Genuine cr x.2 ∧ Fits x.2 ∧ Intact x.2) (db : Database) :
    Runs.run f db events = Runs.run g db events := by
  refine Runs.run_congr ?_ db
  intro x hx db
  obtain ⟨hg, hf, hi⟩ := h x hx
  exact hfg db x (decoded_of_intact b hg hf hi)

theorem record_of_intact (b : Bech32 cr)
    (h : ∀ x ∈ events, Genuine cr x.2 ∧ Fits x.2 ∧ Intact x.2) (db : Database) :
    db.consume b events = db.recordMessages events :=
  run_of_intact b (fun _ _ he => record_of_decoded he) h db

theorem handle_of_intact (b : Bech32 cr)
    (h : ∀ x ∈ events, Genuine cr x.2 ∧ Fits x.2 ∧ Intact x.2) (db : Database) :
    Runs.run (Database.handle b) db events = Runs.run Database.writeMessage db events :=
  run_of_intact b (fun _ _ he => handle_of_decoded he) h db

theorem write_of_intact (b : Bech32 cr)
    (h : ∀ x ∈ events, Genuine cr x.2 ∧ Fits x.2 ∧ Intact x.2) (db : Database) :
    Runs.run (Database.write b) db events = Runs.run Database.writeMessage db events := by
  refine run_of_intact b (fun db x he => ?_) h db
  rw [Database.write, he, Option.isSome_some, if_pos rfl]
  exact handle_of_decoded he

end Intact

/-! ## Following the chain -/

/-- When `f` feeds it the events of the chain, and they are as `Ok` says, the database stands
to the chain as `M` says. -/
def Followed (f : Database → Int64 × Event → Option Database) (Ok : Event → Prop)
    (M : Database → ChainState → Prop) (s : ChainState) : Prop :=
  (∀ x ∈ s.events, Ok x.2) → ∀ db, Runs.run f {} s.events = some db → M db s

/-- What one more event keeps. -/
theorem Followed.append {f : Database → Int64 × Event → Option Database} {Ok : Event → Prop}
    {M : Database → ChainState → Prop} (h : Followed f Ok M s) (he : s'.events = s.events ++ [ev])
    (hstep : ∀ db db', Ok ev.2 → M db s → f db ev = some db' → M db' s') :
    Followed f Ok M s' := by
  intro hok db' hrun
  rw [he] at hok hrun
  obtain ⟨hold, hnew⟩ := List.forall_mem_append.mp hok
  obtain ⟨db, hdb, hlast⟩ := Runs.run_append.mp hrun
  obtain ⟨_, hev, hnil⟩ := Runs.run_cons.mp hlast
  obtain rfl := Option.some.inj hnil
  exact hstep db _ (hnew ev (List.mem_singleton_self ev)) (h hold db hdb) hev

end Arkeo.Directory
