import Arkeo.Directory.TypedEvents
import Arkeo.EventNames

/-! # What the indexer is told

In every run of the chain, what the handlers put into the events they have checked
(`Vouched`), so an event comes back from the indexer's decoder exactly when what the sender
of the message put into it passes (`events_intact_iff`).
-/
namespace Arkeo.Directory
open Exec

variable {cr : Crypto} {ctx : Context} {s s' : ChainState} {w w' : World} {a : Action} {c : Contract}

/-- The keys in the store have been checked, and so has what the events say. -/
structure Vouched (cr : Crypto) (s : ChainState) : Prop where
  contracts : ∀ k c, s.contracts.lookup k = some c → Keyed cr c.provider c.client c.delegate
  providers : ∀ key p, s.providers.lookup key = some p → cr.newPubKey p.pubKey = some p.pubKey
  events : ∀ e ∈ s.events, Genuine cr e.2

namespace Vouched

theorem of_eq (h : Vouched cr s) (hc : s'.contracts = s.contracts)
    (hp : s'.providers = s.providers) (he : s'.events = s.events) : Vouched cr s' where
  contracts := by rw [hc]; exact h.contracts
  providers := by rw [hp]; exact h.providers
  events := by rw [he]; exact h.events

/-- One more event, of what has been checked. -/
theorem told (h : Vouched cr s) {e : Int64 × Event} (he : Genuine cr e.2)
    (hes : s'.events = s.events ++ [e]) : ∀ e' ∈ s'.events, Genuine cr e'.2 := by
  rw [hes]
  exact List.forall_mem_append.mpr ⟨h.events, List.forall_mem_singleton.mpr he⟩

theorem append (h : Vouched cr s) {e : Int64 × Event} (he : Genuine cr e.2)
    (hc : s'.contracts = s.contracts) (hp : s'.providers = s.providers)
    (hes : s'.events = s.events ++ [e]) : Vouched cr s' where
  contracts := by rw [hc]; exact h.contracts
  providers := by rw [hp]; exact h.providers
  events := h.told he hes

/-- A settlement tells of the contract that it settles. -/
theorem settle (h : Vouched cr s) (hi : Inv cr ctx s) (hc : s.contracts.lookup c.id = some c)
    (nonce : Int64) (isFinal : Bool) :
    Vouched cr (s.settle cr ctx (c.raiseNonce nonce) isFinal) where
  contracts k d hd := by
    rw [ChainState.settle_lookup] at hd
    split at hd
    · obtain rfl := Option.some.inj hd
      exact h.contracts _ c hc
    · exact h.contracts k d hd
  providers := by rw [ChainState.settle_providers]; exact h.providers
  events := by
    refine h.told ?_ (ChainState.settle_events ..)
    exact ⟨h.contracts _ c hc, ⟨c.service, rfl⟩, (hi.stored _ c hc).wf.known⟩

theorem expireAll (h : Vouched cr s) (hi : Inv cr ctx s) (ids : List ℕ) :
    Vouched cr (s.expireAll cr ctx ids) := by
  refine ChainState.expireAll_induct (P := Vouched cr) ?_ hi h ids
  intro t d ht hd _ hv
  exact (hv.settle ht hd 0 true).of_eq rfl rfl rfl

theorem relisted (h : Vouched cr s) (ctx : Context) (c : Contract) :
    Vouched cr (s.relisted ctx c) := by
  unfold ChainState.relisted
  split
  · exact h.of_eq rfl rfl rfl
  · exact h

/-- A provider is written, and told of by an event. -/
theorem provider (h : Vouched cr s) (key : String × ℕ) {p : Provider} {e : Int64 × Event}
    (hp : cr.newPubKey p.pubKey = some p.pubKey) (he : Genuine cr e.2)
    (hc : s'.contracts = s.contracts)
    (hps : s'.providers = s.providers.insert key p ∨ s'.providers = s.providers.erase key)
    (hes : s'.events = s.events ++ [e]) : Vouched cr s' where
  contracts := by rw [hc]; exact h.contracts
  providers key' q hq := by
    by_cases heq : key' = key
    · subst heq
      rcases hps with hps | hps
      · rw [hps, AList.lookup_insert] at hq
        obtain rfl := Option.some.inj hq
        exact hp
      · rw [hps, AList.lookup_erase] at hq
        cases hq
    · rcases hps with hps | hps
      · rw [hps, AList.lookup_insert_ne heq] at hq
        exact h.providers key' q hq
      · rw [hps, AList.lookup_erase_ne heq] at hq
        exact h.providers key' q hq
  events := h.told he hes

/-- A bond is told of under the key of the message, and kept under that of the record. -/
theorem bonded (h : Vouched cr s) {msg : MsgBondProvider} {service : ℕ} {addr : Bytes}
    (hb : Bonding cr s msg service addr) : Vouched cr (s.bonded ctx msg service addr) := by
  have hkey := Crypto.newPubKey_of_address hb.addr_eq
  have hrecord : cr.newPubKey (s.providerOf msg.provider service).pubKey =
      some (s.providerOf msg.provider service).pubKey := by
    unfold ChainState.providerOf
    cases hl : s.providers.lookup (toUpper msg.provider, service) with
    | none => exact hkey
    | some p => exact h.providers _ p hl
  refine h.provider (toUpper (s.providerOf msg.provider service).pubKey,
      (s.providerOf msg.provider service).service)
    (e := (ctx.blockHeight, .bondProvider msg.provider msg.service msg.bond
      ((s.providerOf msg.provider service).bond + msg.bond)))
    (p := { s.providerOf msg.provider service with
      bond := (s.providerOf msg.provider service).bond + msg.bond, lastUpdate := ctx.blockHeight })
    hrecord hkey (ChainState.sent_contracts ..) ?_ rfl
  by_cases h0 : (s.providerOf msg.provider service).bond + msg.bond = 0
  · exact .inr (if_pos h0)
  · exact .inl (if_neg h0)

/-- New settings are told of under the key of the record, and with the sender's address. -/
theorem modified (h : Vouched cr s) {msg : MsgModProvider} {service : ℕ} {p : Provider}
    {creator : Bytes} (hp : s.providers.lookup (toUpper msg.provider, service) = some p)
    (hcreator : cr.accAddressFromBech32 msg.creator = some creator) :
    Vouched cr (s.modified ctx creator (msg.settings ctx p)) := by
  have hkey := h.providers _ p hp
  exact h.provider (toUpper p.pubKey, p.service)
    (e := (ctx.blockHeight, .modProvider (modEvent creator (msg.settings ctx p))))
    (p := msg.settings ctx p) hkey
    ⟨⟨msg.creator, hcreator⟩, hkey, p.service, rfl⟩ rfl (.inl rfl) rfl

/-- A contract is opened with keys that have been checked. -/
theorem opened (h : Vouched cr s) {signer : Bytes} (hw : c.Wf cr)
    (hd : cr.newPubKey c.delegate = some c.delegate) : Vouched cr (s.opened ctx signer c) := by
  obtain ⟨addr, haddr⟩ := hw.provider_address
  obtain ⟨addr', haddr'⟩ := hw.client_address
  have hkeys : Keyed cr c.provider c.client c.delegate :=
    ⟨Crypto.newPubKey_of_address haddr, Crypto.newPubKey_of_address haddr', hd⟩
  refine ⟨?_, ?_, ?_⟩
  · intro k d hl
    rw [ChainState.opened_lookup] at hl
    split at hl
    · obtain rfl := Option.some.inj hl
      exact hkeys
    · exact h.contracts k d hl
  · rw [(BondFrame.opened signer c).providers]
    exact h.providers
  · refine h.told ?_ (ChainState.opened_events ..)
    exact ⟨hkeys, ⟨c.service, rfl⟩, hw.known⟩

end Vouched

/-- The handler has read the key that the contract is spent with. -/
theorem openContract_spender {msg : MsgOpenContract} {u : Unit}
    (h : openContract cr ctx msg s = .ok u s') : cr.newPubKey msg.spender = some msg.spender := by
  obtain ⟨_, _, hv, -⟩ := bind_ok.mp h
  unfold openContractValidate at hv
  rw [failIf_bind_ok] at hv
  obtain ⟨-, hv⟩ := hv
  obtain ⟨_, _, -, hv⟩ := bind_ok.mp hv
  rw [ofOption_bind_ok] at hv
  obtain ⟨_, -, hv⟩ := hv
  obtain ⟨_, _, -, hv⟩ := bind_ok.mp hv
  simp only [failIf_bind_ok] at hv
  obtain ⟨-, -, -, -, -, hv⟩ := hv
  obtain ⟨_, _, -, hv⟩ := bind_ok.mp hv
  obtain ⟨spender, _, hs, -⟩ := bind_ok.mp hv
  obtain ⟨hkey, -⟩ := ofOption_ok.mp hs
  rw [(Crypto.newPubKey_some hkey).1] at hkey
  exact hkey

/-- **One step** adds only events that have been checked. -/
theorem Vouched.step (h : Vouched cr w.chain) (hi : Inv cr w.ctx w.chain)
    (hstep : step cr w a = some w') : Vouched cr w'.chain := by
  have hout := step_outcome hi hstep
  cases hout with
  | rejected m => exact h
  | unsent src dst coin => exact h
  | sent src dst coin h0 hle =>
    exact h.of_eq (ChainState.sent_contracts ..) (ChainState.sent_providers ..)
      (ChainState.sent_events ..)
  | provider m s' hdel hm hq hd =>
    obtain ⟨-, hh⟩ := deliver_some hdel
    rcases quiet_cases hm hdel with ⟨msg, service, addr, rfl, hb, rfl⟩ |
      ⟨msg, service, p, creator, rfl, -, -, -, -⟩ | ⟨e, he, hps, hes⟩
    · exact h.bonded hb
    · obtain ⟨service, p, creator, -, hp, -, hcreator, rfl⟩ := modProvider_effect hh
      exact h.modified hp hcreator
    · have hgenuine : Genuine cr e := by
        cases e <;> first | exact trivial | cases he
      exact h.append (e := (w.ctx.blockHeight, e)) hgenuine hq.contracts hps hes
  | opened msg signer service c hsvc hv hc ho =>
    have hdel := deliver_isSome hstep rfl
    obtain ⟨s', hs'⟩ := Option.isSome_iff_exists.mp hdel
    obtain ⟨-, hh⟩ := deliver_some hs'
    have hspender := openContract_spender hh
    refine h.opened ho.wf ?_
    rw [hc]
    exact hspender
  | closed msg c t hd hc hid hopen hby hs ht =>
    have hst := hi.stored _ c hc
    have hset : Vouched cr t := by
      rw [ht, ← hst.wf.raiseNonce_zero]
      exact (h.relisted w.ctx c).settle (hi.relisted c) (ChainState.relisted_lookup w.ctx hc) 0 _
    have hkeys := h.contracts _ c hc
    exact hset.append (e := (w.ctx.blockHeight, closeEvent c)) ⟨hkeys, c.service, rfl⟩ rfl rfl rfl
  | claimed msg c hc hid hn hset hf => exact h.settle hi hc msg.nonce false
  | ended ctx' hctx => exact h.expireAll hi _

theorem Genesis.vouched (hg : Genesis w) : Vouched cr w.chain where
  contracts k c hc := by rw [hg.contracts] at hc; cases hc
  providers key p hp := by rw [hg.providers] at hp; cases hp
  events e he := by rw [hg.events] at he; cases he

/-- The events of every run have been checked. -/
theorem reachable_vouched (hg : Genesis w) {actions : List Action}
    (h : Runs.run (step cr) w actions = some w') : Vouched cr w'.chain := by
  have hall : Inv cr w'.ctx w'.chain ∧ Vouched cr w'.chain := by
    refine Runs.run_induct (P := fun w => Inv cr w.ctx w.chain ∧ Vouched cr w.chain) ?_
      ⟨hg.inv, Genesis.vouched hg⟩ h
    intro v b v' hv hstep
    exact ⟨(step_outcome hv.1 hstep).inv hv.1, hv.2.step hv.1 hstep⟩
  exact hall.2

/-- **Every event of every run comes back from the decoder exactly when what a sender put
into it passes**: the metadata URI and the status of a provider, the name of the service
of a bond, and the authorization of a contract.  The order of the attributes is free, and
the SDK may have added its own. -/
theorem events_intact_iff (b : Bech32 cr) (hg : Genesis w) {actions : List Action}
    (hrun : Runs.run (step cr) w actions = some w') {height : Int64} {e : Event}
    (he : (height, e) ∈ w'.chain.events) (hf : Fits e) {t : Typed} (ht : typed? b e = some t)
    {attrs extra : List Attribute} (hem : Emitted t.message t.value attrs extra) :
    parseEventToConcreteType t.message attrs = some t.value ↔ Intact e :=
  parse_typed_iff b ((reachable_vouched hg hrun).events _ he) hf ht hem

namespace Sample
open Arkeo.Sample

/-- The addresses and keys of the sample chain. -/
def bech32 : Bech32 crypto where
  accAddressString addr :=
    (([provider, client].find? fun i => i.addr = addr).map Identity.account).getD ""
  accAddress s addr h := by
    obtain ⟨i, hi, rfl⟩ := Option.map_eq_some_iff.mp h
    have hall : ∀ i ∈ [provider, client],
        crypto.accAddressFromBech32 ((([provider, client].find? fun j => j.addr = i.addr).map
          Identity.account).getD "") = some i.addr ∧
        (([provider, client].find? fun j => j.addr = i.addr).map Identity.account).getD "" ≠ "" ∧
        Plain ((([provider, client].find? fun j => j.addr = i.addr).map
          Identity.account).getD "") := by
      decide +kernel
    exact hall i (List.mem_of_find?_eq_some hi)
  pubKey s key h := by
    obtain ⟨i, hi, rfl⟩ := Option.map_eq_some_iff.mp h
    have hall : ∀ i ∈ [provider, client], Plain i.pubKey := by decide +kernel
    have hs := List.find?_some hi
    rw [decide_eq_true_eq] at hs
    rw [← hs]
    exact hall i (List.mem_of_find?_eq_some hi)

/-- The provider gives a metadata URI. -/
def settings (uri : String) : Action :=
  .msg (.modProvider
    { creator := provider.account, provider := provider.pubKey, service := service
      metadataUri := uri, metadataNonce := 1, status := .online, minContractDuration := 1
      maxContractDuration := 100, subscriptionRate := [⟨denom, 10⟩]
      payAsYouGoRate := [⟨denom, 10⟩], settlementDuration := 1 })

/-- The event of the settings. -/
def told (uri : String) : EventModProvider where
  creator := provider.addr
  provider := provider.pubKey
  service := service
  metadataUri := uri
  metadataNonce := 1
  status := .online
  minContractDuration := 1
  maxContractDuration := 100
  subscriptionRate := [⟨denom, 10⟩]
  payAsYouGoRate := [⟨denom, 10⟩]
  bond := 100000000
  settlementDuration := 1

def plainUri : String := "http://localhost:3636/metadata.json"

def queryUri : String := "http://localhost/?a=1&b=2"

theorem fits_told (uri : String) : Fits (.modProvider (told uri)) := by
  refine ⟨(by decide : 1 < 2 ^ 64), (by decide : (100000000 : ℤ).natAbs < 2 ^ 256), ?_, ?_⟩
  · intro c hc
    rw [List.mem_singleton.mp hc]
    decide
  · intro c hc
    rw [List.mem_singleton.mp hc]
    decide

/-- The attributes of the event, with the one that the SDK adds to those of a message. -/
def attributes (uri : String) : List Attribute :=
  (modProviderMessage bech32).typedEvent (told uri) ++ [⟨"msg_index", "0"⟩]

theorem emitted (uri : String) : Emitted (modProviderMessage bech32) (told uri) (attributes uri)
    [⟨"msg_index", "0"⟩] :=
  ⟨.refl _, fun attr hattr => .inl (by rw [List.mem_singleton.mp hattr])⟩

/-- The provider gives one URI and then another. -/
theorem told_run : ∃ w, Runs.run (step crypto) genesis
      [bond service, settings plainUri, settings queryUri] = some w ∧
    (1, .modProvider (told plainUri)) ∈ w.chain.events ∧
    (1, .modProvider (told queryUri)) ∈ w.chain.events := by
  have h : ((Runs.run (step crypto) genesis
      [bond service, settings plainUri, settings queryUri]).map fun w =>
        decide ((1, .modProvider (told plainUri)) ∈ w.chain.events ∧
          (1, .modProvider (told queryUri)) ∈ w.chain.events)) = some true := by decide +kernel
  obtain ⟨w, hw, hd⟩ := Option.map_eq_some_iff.mp h
  exact ⟨w, hw, of_decide_eq_true hd⟩

end Sample
open Arkeo.Sample

/-- The URI of the decoder's test comes back. -/
theorem plain_uri_returned :
    parseEventToConcreteType (modProviderMessage Sample.bech32) (Sample.attributes Sample.plainUri) =
      some (Sample.told Sample.plainUri) := by
  obtain ⟨w, hrun, hplain, -⟩ := Sample.told_run
  have hpasses : Passes Sample.plainUri := by decide +kernel
  exact (events_intact_iff (t := ⟨modProviderMessage Sample.bech32, Sample.told Sample.plainUri⟩)
    Sample.bech32 genesis_ok hrun hplain (Sample.fits_told _) rfl (Sample.emitted _)).mpr
      ⟨hpasses, .inr rfl⟩

/-- **A URI with an ampersand does not come back**: its JSON has the escaped character, and
the decoder takes the escape for text. -/
theorem query_uri_not_returned : ∃ w, Runs.run (step crypto) genesis
      [bond service, Sample.settings Sample.plainUri, Sample.settings Sample.queryUri] = some w ∧
    (1, .modProvider (Sample.told Sample.queryUri)) ∈ w.chain.events ∧
    parseEventToConcreteType (modProviderMessage Sample.bech32) (Sample.attributes Sample.queryUri) ≠
      some (Sample.told Sample.queryUri) := by
  obtain ⟨w, hrun, -, hquery⟩ := Sample.told_run
  refine ⟨w, hrun, hquery, fun h => ?_⟩
  have hiff := parse_typed_iff (t := ⟨modProviderMessage Sample.bech32, Sample.told Sample.queryUri⟩)
    Sample.bech32 ((reachable_vouched genesis_ok hrun).events _ hquery) (Sample.fits_told _) rfl
    (Sample.emitted _)
  have hnot : ¬Intact (.modProvider (Sample.told Sample.queryUri)) := by
    rintro ⟨huri, -⟩
    exact absurd huri (by decide +kernel)
  exact hnot (hiff.mp h)

end Arkeo.Directory
