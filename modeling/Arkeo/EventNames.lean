import Arkeo.BondSolvency
import Arkeo.History

/-! # The names in the events

Every event about a provider or a contract names a provider and a service.  Most of the
names come from the store: the key of the record or of the contract, and the id of the
service as `Service.String` prints it.  The event of a bond has the strings of the
message, and an open contract has the key as its message spells it, while the store
resolves both without regard to letter case.  Two events about one record name it alike
when the messages spell the names as the store prints them (`names_consistent`).
-/
namespace Arkeo
open Exec

variable {cr : Crypto} {spell : String → String} {w w' v v' : World} {a : Action}
  {s s' : ChainState} {ctx : Context} {actions : List Action}

/-- The provider and the service as an event names them. -/
def Event.names? : Event → Option (String × String)
  | .bondProvider provider service _ _ => some (provider, service)
  | .modProvider e => some (e.provider, e.service)
  | .openContract e => some (e.provider, e.service)
  | .closeContract _ provider service _ _ => some (provider, service)
  | .settleContract e => some (e.provider, e.service)
  | _ => none

theorem Event.names?_of_isRegistry {e : Event} (h : e.isRegistry = true) : e.names? = none := by
  cases e <;> first | rfl | cases h

/-- The contract an event is about. -/
def Event.contractId? : Event → Option ℕ
  | .openContract e => some e.contractId
  | .closeContract id _ _ _ _ => some id
  | .settleContract e => some e.contractId
  | _ => none

/-- The record of a provider that an event of a step is about: the one the message
resolves to, or the one of the event's contract. -/
def recordOf (w w' : World) (a : Action) (e : Event) : Option (String × ℕ) :=
  match a with
  | .msg (.bondProvider msg) =>
      (w.chain.serviceId? msg.service).map fun service => (toUpper msg.provider, service)
  | .msg (.modProvider msg) =>
      (w.chain.serviceId? msg.service).map fun service => (toUpper msg.provider, service)
  | _ =>
      (e.contractId?.bind fun k => w'.chain.contracts.lookup k).map fun c =>
        (toUpper c.provider, c.service)

/-- A step of the run emits an event about a record, which it names `n`. -/
def Names (cr : Crypto) (w : World) (actions : List Action) (r : String × ℕ)
    (n : String × String) : Prop :=
  ∃ before a after v v' e, actions = before ++ a :: after ∧
    Runs.run (step cr) w before = some v ∧ step cr v a = some v' ∧
    e ∈ v'.chain.events.drop v.chain.events.length ∧ recordOf v v' a e.2 = some r ∧
    e.2.names? = some n

/-- The guard: an accepted bond has the service as its id is printed, and it and an
accepted opening spell the key of the provider in the way that is chosen for it. -/
def Spells (cr : Crypto) (spell : String → String) (w : World) : Action → Prop
  | .msg (.bondProvider msg) =>
      (deliver cr w.ctx (.bondProvider msg) w.chain).isSome →
        msg.provider = spell (toUpper msg.provider) ∧
        (w.chain.serviceId? msg.service).map serviceString = some msg.service
  | .msg (.openContract msg) =>
      (deliver cr w.ctx (.openContract msg) w.chain).isSome →
        msg.provider = spell (toUpper msg.provider)
  | _ => True

instance (cr : Crypto) (spell : String → String) (w : World) (a : Action) :
    Decidable (Spells cr spell w a) := by
  unfold Spells
  split <;> infer_instance

/-- The keys in the store are spelled in the chosen way. -/
structure ChainState.Spelled (spell : String → String) (s : ChainState) : Prop where
  contracts : ∀ k c, s.contracts.lookup k = some c → c.provider = spell (toUpper c.provider)
  providers : ∀ key p, s.providers.lookup key = some p →
    key = (toUpper p.pubKey, p.service) ∧ p.pubKey = spell key.1

/-- New events name the records they are about in the chosen way. -/
def Aptly (spell : String → String) (w w' : World) (a : Action) : Prop :=
  ∃ es, w'.chain.events = w.chain.events ++ es ∧
    ∀ e ∈ es, ∀ r n, recordOf w w' a e.2 = some r → e.2.names? = some n →
      n = (spell r.1, serviceString r.2)

/-! ## Steps -/

/-- Later contracts are spelled as they were. -/
theorem ChainState.Spelled.later {lo hi : ℤ} {New : ℕ → Contract → Prop}
    (h : s.Spelled spell) (hl : ChainState.Later lo hi s s' New)
    (hnew : ∀ k c, New k c → c.provider = spell (toUpper c.provider))
    (hp : s'.providers = s.providers) : s'.Spelled spell where
  contracts k c hc := by
    rcases hl.origin k c hc with ⟨d, hd, hdc⟩ | ⟨-, hc'⟩
    · rw [hdc.provider_eq]
      exact h.contracts k d hd
    · exact hnew k c hc'
  providers key p hlookup := by
    rw [hp] at hlookup
    exact h.providers key p hlookup

/-- The record a bond message finds, or makes, is spelled in the chosen way. -/
theorem ChainState.Spelled.providerOf (h : s.Spelled spell) {pubKey : PubKey}
    (hkey : pubKey = spell (toUpper pubKey)) (service : ℕ) :
    (toUpper (s.providerOf pubKey service).pubKey, (s.providerOf pubKey service).service) =
        (toUpper pubKey, service) ∧
      (s.providerOf pubKey service).pubKey = spell (toUpper pubKey) := by
  unfold ChainState.providerOf
  cases hl : s.providers.lookup (toUpper pubKey, service) with
  | none => exact ⟨rfl, hkey⟩
  | some p => exact ⟨(h.providers _ p hl).1.symm, (h.providers _ p hl).2⟩

theorem ChainState.Spelled.insert (h : s.Spelled spell) {key : String × ℕ} {p : Provider}
    (hkey : key = (toUpper p.pubKey, p.service)) (hp : p.pubKey = spell key.1)
    (hc : s'.contracts = s.contracts) (hps : s'.providers = s.providers.insert key p) :
    s'.Spelled spell where
  contracts k c hl := by
    rw [hc] at hl
    exact h.contracts k c hl
  providers key' q hl := by
    rw [hps] at hl
    by_cases heq : key' = key
    · subst heq
      rw [AList.lookup_insert] at hl
      obtain rfl := Option.some.inj hl
      exact ⟨hkey, hp⟩
    · rw [AList.lookup_insert_ne heq] at hl
      exact h.providers key' q hl

theorem ChainState.Spelled.erase (h : s.Spelled spell) {key : String × ℕ}
    (hc : s'.contracts = s.contracts) (hps : s'.providers = s.providers.erase key) :
    s'.Spelled spell where
  contracts k c hl := by
    rw [hc] at hl
    exact h.contracts k c hl
  providers key' q hl := by
    rw [hps] at hl
    by_cases heq : key' = key
    · rw [heq, AList.lookup_erase] at hl
      cases hl
    · rw [AList.lookup_erase_ne heq] at hl
      exact h.providers key' q hl

/-- An event that names the provider and the service of a stored contract. -/
def ChainState.Tells (s : ChainState) (e : Event) : Prop :=
  ∃ k c, e.contractId? = some k ∧ s.contracts.lookup k = some c ∧
    e.names? = some (c.provider, serviceString c.service)

/-- It does so of every later store. -/
theorem ChainState.Tells.later {lo hi : ℤ} {New : ℕ → Contract → Prop} {e : Event}
    (h : s.Tells e) (hl : ChainState.Later lo hi s s' New) : s'.Tells e := by
  obtain ⟨k, c, hk, hc, hn⟩ := h
  obtain ⟨c', hc', hlater⟩ := hl.kept k c hc
  refine ⟨k, c', hk, hc', ?_⟩
  rw [hlater.provider_eq, hlater.service_eq]
  exact hn

/-- The event of a settlement tells of the contract. -/
theorem ChainState.tells_settle (cr : Crypto) (ctx : Context) (s : ChainState) (c : Contract)
    (debt : ℤ) (isFinal : Bool) :
    (s.settle cr ctx c isFinal).Tells (.settleContract (settleEvent c debt)) := by
  refine ⟨c.id, c.settled ctx isFinal, rfl, ?_, rfl⟩
  rw [ChainState.settle_lookup, if_pos rfl]

/-- The events of the end of a block tell of contracts. -/
theorem expireAll_tells (hi : Inv cr ctx s) (ids : List ℕ) :
    ∃ es, (s.expireAll cr ctx ids).events = s.events ++ es ∧
      ∀ e ∈ es, (s.expireAll cr ctx ids).Tells e.2 := by
  refine ChainState.expireAll_induct
    (P := fun t => ∃ es, t.events = s.events ++ es ∧ ∀ e ∈ es, t.Tells e.2) ?_ hi
    ⟨[], (List.append_nil _).symm, nofun⟩ ids
  rintro t c ht hc h0 ⟨es, hes, htells⟩
  have hset := ChainState.Later.settle cr ctx hc 0 fun (_ : true = true) => h0
  have hlater : ChainState.Later ctx.blockHeight.toInt ctx.blockHeight.toInt t
      ((t.settle cr ctx (c.raiseNonce 0) true).unlist c.expiration) fun _ _ => False :=
    ⟨hset.kept, hset.origin⟩
  refine ⟨es ++ [(ctx.blockHeight, .settleContract (settleEvent (c.raiseNonce 0)
    ((c.raiseNonce 0).debt ctx)))], ?_, ?_⟩
  · show (t.settle cr ctx (c.raiseNonce 0) true).events = _
    rw [ChainState.settle_events, hes, List.append_assoc]
  · intro e he
    rcases List.mem_append.mp he with he | he
    · exact (htells e he).later hlater
    · rw [List.mem_singleton.mp he]
      exact t.tells_settle cr ctx (c.raiseNonce 0) _ true

/-- Events that tell of contracts name them aptly. -/
theorem aptly_of_tells (hs : w'.chain.Spelled spell) {es : List (Int64 × Event)}
    (hes : w'.chain.events = w.chain.events ++ es) (htells : ∀ e ∈ es, w'.chain.Tells e.2)
    (ha : ∀ e, recordOf w w' a e = (e.contractId?.bind fun k =>
      w'.chain.contracts.lookup k).map fun c => (toUpper c.provider, c.service)) :
    Aptly spell w w' a := by
  refine ⟨es, hes, ?_⟩
  intro e he r n hr hn
  obtain ⟨k, c, hk, hc, hnames⟩ := htells e he
  rw [ha, hk, Option.bind_some, hc, Option.map_some] at hr
  obtain rfl := Option.some.inj hr
  rw [hnames] at hn
  obtain rfl := Option.some.inj hn
  rw [← hs.contracts k c hc]

/-- No event is apt. -/
theorem aptly_silent (h : w'.chain.events = w.chain.events) : Aptly spell w w' a :=
  ⟨[], by rw [h, List.append_nil], nofun⟩

/-- **One step**: the store stays spelled in the chosen way, and the events are apt. -/
theorem step_spelled (hi : Inv cr v.ctx v.chain) (h : v.chain.Spelled spell)
    (hguard : Spells cr spell v a) (hstep : step cr v a = some v') :
    v'.chain.Spelled spell ∧ Aptly spell v v' a := by
  have hout := step_outcome hi hstep
  have hlater := hout.later hi
  cases hout with
  | rejected m => exact ⟨h, aptly_silent rfl⟩
  | unsent src dst coin => exact ⟨h, aptly_silent rfl⟩
  | sent src dst coin h0 hle =>
    have hno : ∀ k c, OpenedNow cr v (.send src dst coin) k c →
        c.provider = spell (toUpper c.provider) := by
      rintro k c ⟨msg, service, signer, ha, -⟩
      cases ha
    exact ⟨h.later hlater hno (ChainState.sent_providers ..),
      aptly_silent (ChainState.sent_events ..)⟩
  | provider m s' hdel hm hq hd =>
    rcases quiet_cases hm hdel with ⟨msg, service, addr, rfl, hb, rfl⟩ |
      ⟨msg, service, p, creator, rfl, hsvc, hp, hbond, rfl⟩ | ⟨e, he, hps, hes⟩
    · obtain ⟨hkey, hname⟩ := hguard (by rw [hdel]; rfl)
      obtain ⟨hpkey, hpname⟩ := h.providerOf hkey service
      rw [hb.service_eq, Option.map_some] at hname
      refine ⟨?_, ⟨[_], rfl, ?_⟩⟩
      · by_cases h0 : (v.chain.providerOf msg.provider service).bond + msg.bond = 0
        · exact h.erase hq.contracts (if_pos h0)
        · refine h.insert (p := { v.chain.providerOf msg.provider service with
            bond := (v.chain.providerOf msg.provider service).bond + msg.bond
            lastUpdate := v.ctx.blockHeight }) rfl ?_ hq.contracts (if_neg h0)
          rw [hpkey]
          exact hpname
      · intro e he r n hr hn
        rw [List.mem_singleton.mp he] at hn
        obtain rfl := Option.some.inj hn
        simp only [recordOf, hb.service_eq, Option.map_some] at hr
        obtain rfl := Option.some.inj hr
        rw [← hkey, Option.some.inj hname]
    · obtain ⟨hkey, hname⟩ := h.providers _ p hp
      have hself : (toUpper p.pubKey, p.service) = (toUpper (msg.settings v.ctx p).pubKey,
        (msg.settings v.ctx p).service) := rfl
      refine ⟨h.insert hself ?_ hq.contracts rfl, ⟨[_], rfl, ?_⟩⟩
      · rw [← hkey]
        exact hname
      · intro e he r n hr hn
        rw [List.mem_singleton.mp he] at hn
        obtain rfl := Option.some.inj hn
        simp only [recordOf, hsvc, Option.map_some] at hr
        obtain rfl := Option.some.inj hr
        rw [← hname, (Prod.mk.inj hkey).2]
        rfl
    · have hno : ∀ k c, OpenedNow cr v (.msg m) k c → c.provider = spell (toUpper c.provider) := by
        rintro k c ⟨msg, service, signer, ha, -⟩
        cases ha
        cases hm
      refine ⟨h.later hlater hno hps, ⟨[_], hes, ?_⟩⟩
      intro e' he' r n hr hn
      rw [List.mem_singleton.mp he', Event.names?_of_isRegistry he] at hn
      cases hn
  | opened msg signer service c hsvc hv hc ho =>
    have hkey := hguard (deliver_isSome hstep rfl)
    have hnew : ∀ k d, OpenedNow cr v (.msg (.openContract msg)) k d →
        d.provider = spell (toUpper d.provider) := by
      rintro k d ⟨msg', service', signer', ha, -, -, -, rfl, -⟩
      cases ha
      exact hkey
    have hs := h.later hlater hnew (BondFrame.opened signer c).providers
    refine ⟨hs, aptly_of_tells hs (ChainState.opened_events ..) ?_ fun _ => rfl⟩
    intro e he
    rw [List.mem_singleton.mp he]
    refine ⟨c.id, c, rfl, ?_, rfl⟩
    rw [ChainState.opened_lookup, if_pos rfl]
  | closed msg c t hd hc hid hopen hby hs ht =>
    have hno : ∀ k d, OpenedNow cr v (.msg (.closeContract msg)) k d →
        d.provider = spell (toUpper d.provider) := by
      rintro k d ⟨msg, service, signer, ha, -⟩
      cases ha
    have hset : BondFrame v.chain t := by
      rw [ht]
      exact (BondFrame.relisted v.ctx c).trans (.settle cr v.ctx c c.isSubscription)
    have hs' := h.later hlater hno hset.providers
    have htells : t.Tells (.settleContract (settleEvent c (c.debt v.ctx))) := by
      rw [ht]
      exact ChainState.tells_settle ..
    have hevents : t.events ++ [(v.ctx.blockHeight, closeEvent c)] = v.chain.events ++
        [(v.ctx.blockHeight, .settleContract (settleEvent c (c.debt v.ctx))),
          (v.ctx.blockHeight, closeEvent c)] := by
      have hrel : (v.chain.relisted v.ctx c).events = v.chain.events := by
        unfold ChainState.relisted
        split <;> rfl
      rw [ht, ChainState.settle_events, hrel, List.append_assoc]
      rfl
    refine ⟨hs', aptly_of_tells hs' hevents ?_ fun _ => rfl⟩
    intro e he
    rcases List.mem_cons.mp he with rfl | he
    · exact htells
    · -- the close event names what the settlement names
      rw [List.mem_singleton.mp he]
      exact htells
  | claimed msg c hc hid hn hset hf =>
    have hno : ∀ k d, OpenedNow cr v (.msg (.claimContractIncome msg)) k d →
        d.provider = spell (toUpper d.provider) := by
      rintro k d ⟨msg, service, signer, ha, -⟩
      cases ha
    have hs := h.later hlater hno (ChainState.settle_providers ..)
    refine ⟨hs, aptly_of_tells hs (ChainState.settle_events ..) ?_ fun _ => rfl⟩
    intro e he
    rw [List.mem_singleton.mp he]
    exact ChainState.tells_settle ..
  | ended ctx' hctx =>
    obtain ⟨es, hes, htells⟩ := expireAll_tells hi (v.chain.listedAt v.ctx.blockHeight)
    have hno : ∀ k c, OpenedNow cr v .endBlock k c → c.provider = spell (toUpper c.provider) := by
      rintro k c ⟨msg, service, signer, ha, -⟩
      cases ha
    have hs := h.later hlater hno (BondFrame.expireAll hi _).providers
    exact ⟨hs, aptly_of_tells hs hes htells fun _ => rfl⟩

/-! ## Runs -/

/-- What an event about a record names it in a run that meets the guard. -/
theorem Names.eq_spelled (hg : Genesis w)
    (hguard : Runs.Guarded (step cr) (Spells cr spell) w actions) {r : String × ℕ}
    {n : String × String} (h : Names cr w actions r n) : n = (spell r.1, serviceString r.2) := by
  obtain ⟨before, a, after, v, v', e, rfl, hrun, hstep, he, hr, hn⟩ := h
  obtain ⟨hbefore, hrest⟩ := Runs.guarded_append.mp hguard
  have hinit : w.chain.Spelled spell :=
    { contracts := fun k c hc => by rw [hg.contracts] at hc; cases hc
      providers := fun key p hp => by rw [hg.providers] at hp; cases hp }
  have hinv : Inv cr v.ctx v.chain ∧ v.chain.Spelled spell := by
    refine Runs.run_induct_of_guarded (P := fun v => Inv cr v.ctx v.chain ∧ v.chain.Spelled spell)
      ?_ ⟨hg.inv, hinit⟩ hbefore hrun
    intro u b u' hu hb hstep
    exact ⟨(step_outcome hu.1 hstep).inv hu.1, (step_spelled hu.1 hu.2 hb hstep).1⟩
  obtain ⟨-, es, hes, hapt⟩ := step_spelled hinv.1 hinv.2 (hrest v hrun).1 hstep
  rw [hes, List.drop_left] at he
  exact hapt e he r n hr hn

/-- **Two events about one record name it alike**, where the messages spell the service as
it is printed and the key in one way. -/
theorem names_consistent (hg : Genesis w)
    (hguard : Runs.Guarded (step cr) (Spells cr spell) w actions) {r : String × ℕ}
    {n n' : String × String} (h : Names cr w actions r n) (h' : Names cr w actions r n') :
    n = n' :=
  (h.eq_spelled hg hguard).trans (h'.eq_spelled hg hguard).symm

/-- The records and the names of the events of a step after a run. -/
def observed (cr : Crypto) (w : World) (before : List Action) (a : Action) :
    List (Option (String × ℕ) × Option (String × String)) :=
  match Runs.run (step cr) w before with
  | none => []
  | some v =>
      match step cr v a with
      | none => []
      | some v' =>
          (v'.chain.events.drop v.chain.events.length).map fun e =>
            (recordOf v v' a e.2, e.2.names?)

theorem names_of_observed (before after : List Action) {r : String × ℕ} {n : String × String}
    (h : (some r, some n) ∈ observed cr w before a) : Names cr w (before ++ a :: after) r n := by
  unfold observed at h
  split at h
  · cases h
  · rename_i v hv
    split at h
    · cases h
    · rename_i v' hv'
      obtain ⟨e, he, heq⟩ := List.mem_map.mp h
      obtain ⟨hr, hn⟩ := Prod.mk.inj heq
      exact ⟨before, a, after, v, v', e, rfl, hv, hv', he, hr, hn⟩

namespace Sample

/-- The provider bonds, with the service spelled as given. -/
def bond (service : String) : Action :=
  .msg (.bondProvider
    { creator := provider.account, provider := provider.pubKey, service := service
      bond := 100000000 })

/-- New settings of the provider. -/
def mod : Action :=
  .msg (.modProvider
    { creator := provider.account, provider := provider.pubKey, service := service
      metadataUri := "", metadataNonce := 1, status := .online, minContractDuration := 1
      maxContractDuration := 100, subscriptionRate := [⟨denom, 10⟩]
      payAsYouGoRate := [⟨denom, 10⟩], settlementDuration := 1 })

end Sample
open Sample

/-- The bond and the settings of the sample chain name the provider alike. -/
theorem setup_names_consistent : ∃ n n', Names crypto genesis [bond service, mod]
      (toUpper provider.pubKey, 10) n ∧
    Names crypto genesis [bond service, mod] (toUpper provider.pubKey, 10) n' ∧ n = n' := by
  have hbond : Names crypto genesis [bond service, mod] (toUpper provider.pubKey, 10)
      (provider.pubKey, service) :=
    names_of_observed [] [mod] (by decide +kernel)
  have hmod : Names crypto genesis [bond service, mod] (toUpper provider.pubKey, 10)
      (provider.pubKey, service) :=
    names_of_observed [bond service] [] (by decide +kernel)
  have hguard : Runs.Guarded (step crypto) (Spells crypto toLower) genesis [bond service, mod] := by
    decide +kernel
  exact ⟨_, _, hbond, hmod, names_consistent genesis_ok hguard hbond hmod⟩

/-- **A bond is told under another name than the settings**: the provider writes the
service with capital letters, and the registry finds it. -/
theorem bond_named_otherwise : ∃ n n', Names crypto genesis [bond "BTC-mainnet-fullnode", mod]
      (toUpper provider.pubKey, 10) n ∧
    Names crypto genesis [bond "BTC-mainnet-fullnode", mod] (toUpper provider.pubKey, 10) n' ∧
    n ≠ n' := by
  have hbond : Names crypto genesis [bond "BTC-mainnet-fullnode", mod]
      (toUpper provider.pubKey, 10) (provider.pubKey, "BTC-mainnet-fullnode") :=
    names_of_observed [] [mod] (by decide +kernel)
  have hmod : Names crypto genesis [bond "BTC-mainnet-fullnode", mod]
      (toUpper provider.pubKey, 10) (provider.pubKey, service) :=
    names_of_observed [bond "BTC-mainnet-fullnode"] [] (by decide +kernel)
  exact ⟨_, _, hbond, hmod, by decide⟩

end Arkeo
