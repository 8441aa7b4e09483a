import Arkeo.Sentinel.Fetch
import Arkeo.Sentinel.Memory
import Arkeo.Withdrawal

/-! # What the sentinel makes of an open event

`handleOpenContractEvent` puts a contract together from the event of its opening.  The
event has the service by its name, which the sentinel looks up in the static table: the
ids that only the registry of the chain has are numbered names there and come back as
`0`.  It has nothing paid either, where the chain has a zero (`open_event_mirrored`).
-/
namespace Arkeo.Sentinel
open Arkeo.Contract

variable {cr : Crypto} {cfg : Config} {w v v' : Arkeo.World} {c : Contract} {k : ℕ}

/-- The contract as the open event tells it: the service by way of its name, and no
amount paid. -/
def CachedContract.told (c : Contract) : CachedContract :=
  { CachedContract.ofChain c with
    service := serviceLookup (serviceString c.service)
    paid := none }

/-- A contract that has just been opened is remembered as it was told, unless it has
expired in the meantime. -/
theorem handleOpenContract_openEvent {s : State} (hmine : c.provider = cfg.providerPubKey)
    (hdeposit : c.deposit ≠ 0) (hnonce : c.nonce = 0) (hsettled : c.settlementHeight = 0) :
    (handleOpenContract cfg (openEvent c) s).db.lookup c.id =
      if c.isOpen s.blockHeight then some (CachedContract.told c) else none := by
  have htold : handleOpenContract cfg (openEvent c) s = memStorePut (CachedContract.told c) s := by
    rw [handleOpenContract, if_neg]
    · simp only [CachedContract.told, CachedContract.ofChain, openEvent, hnonce, hsettled]
    · rintro (hother | hzero)
      · exact hother hmine
      · exact hdeposit hzero
  have hopen : (CachedContract.told c).isExpired s.blockHeight = !c.isOpen s.blockHeight := rfl
  rw [htold, memStorePut, hopen]
  cases c.isOpen s.blockHeight with
  | true =>
    simp only [Bool.not_true, Bool.false_eq_true, if_false, if_true]
    exact AList.lookup_insert _
  | false =>
    simp only [Bool.not_false, Bool.false_eq_true, if_false, if_true]
    exact AList.lookup_erase _ _

/-- An accepted message that opens a contract: the contract is stored, and the event is
about it. -/
theorem step_opened {msg : MsgOpenContract} {height : Int64} {e : EventOpenContract}
    (hi : Inv cr v.ctx v.chain) (hstep : Arkeo.step cr v (.msg (.openContract msg)) = some v')
    (hevent : v'.chain.events = v.chain.events ++ [(height, .openContract e)]) :
    ∃ c, v'.chain.contracts.lookup c.id = some c ∧ e = openEvent c ∧ c.Wf cr ∧
      c.nonce = 0 ∧ c.settlementHeight = 0 := by
  cases Arkeo.step_outcome hi hstep with
  | rejected m => exact absurd hevent (by simp)
  | provider m s' hdel hm hq hd => cases hm
  | opened msg signer service c hsvc hv hc ho =>
    rw [ChainState.opened_events, List.append_cancel_left_eq, List.cons.injEq, Prod.mk.injEq,
      Event.openContract.injEq] at hevent
    refine ⟨c, ?_, hevent.1.2.symm, ho.wf, ho.nonce_eq, ho.settlementHeight_eq⟩
    rw [ChainState.opened_lookup, if_pos rfl]

/-- **The copy made from an open event is never the contract**: the amount paid is nil.
It is the contract in every other field exactly when the sentinel is not past the
contract's last block and the static table has the service. -/
theorem open_event_mirrored (hg : Genesis w) {actions : List Arkeo.Action}
    (hrun : Runs.run (Arkeo.step cr) w actions = some v) {msg : MsgOpenContract}
    (hstep : Arkeo.step cr v (.msg (.openContract msg)) = some v') {height : Int64}
    {e : EventOpenContract}
    (hevent : v'.chain.events = v.chain.events ++ [(height, .openContract e)])
    (hmine : e.provider = cfg.providerPubKey) (hdeposit : e.deposit ≠ 0) (s : State) :
    ∃ c, v'.chain.contracts.lookup e.contractId = some c ∧
      (handleOpenContract cfg e s).db.lookup e.contractId ≠ some (CachedContract.ofChain c) ∧
      ((handleOpenContract cfg e s).db.lookup e.contractId =
          some { CachedContract.ofChain c with paid := none } ↔
        c.isOpen s.blockHeight = true ∧ c.service < serviceNames.length) := by
  obtain ⟨c, hc, rfl, hwf, hnonce, hsettled⟩ :=
    step_opened (reachable_inv hg hrun) hstep hevent
  have hlookup := handleOpenContract_openEvent (s := s) hmine hdeposit hnonce hsettled
  refine ⟨c, hc, ?_, ?_⟩
  · change (handleOpenContract cfg (openEvent c) s).db.lookup c.id ≠ _
    rw [hlookup]
    split
    · intro heq
      have hpaid := congrArg CachedContract.paid (Option.some.inj heq)
      cases hpaid
    · exact nofun
  · change (handleOpenContract cfg (openEvent c) s).db.lookup c.id = _ ↔ _
    rw [hlookup, ← serviceLookup_serviceString]
    cases c.isOpen s.blockHeight with
    | false => simp
    | true =>
      simp only [if_true, true_and, Option.some.injEq]
      constructor
      · intro heq
        have hservice := congrArg CachedContract.service heq
        exact Int.ofNat.inj hservice
      · intro heq
        rw [CachedContract.told, heq]
        rfl

namespace Sample
open Arkeo.Sample

/-- Governance registers a service under an id that the static table does not have, and
the provider offers it. -/
def enrolled : List Arkeo.Action :=
  [.msg (.registerService
      { creator := genesis.ctx.authority, id := 500, name := "trial", description := ""
        serviceType := "" }),
   .msg (.bondProvider
      { creator := provider.account, provider := provider.pubKey, service := "trial"
        bond := 100000000 }),
   .msg (.modProvider
      { creator := provider.account, provider := provider.pubKey, service := "trial"
        metadataUri := "", metadataNonce := 1, status := .online, minContractDuration := 1
        maxContractDuration := 100, subscriptionRate := [⟨denom, 10⟩]
        payAsYouGoRate := [⟨denom, 10⟩], settlementDuration := 1 })]

/-- The client opens a contract for a service. -/
def order (service : String) : MsgOpenContract :=
  { openMsg .payAsYouGo 100 with service := service }

/-- The event of it, when it is the first contract of the chain. -/
def ordered (service : String) : EventOpenContract :=
  { opening with contractId := 1, service := service }

/-- The service of a contract and whether it is open at the start, the service of its copy,
and whether the event of its opening is the last. -/
def reflected (actions : List Arkeo.Action) (service name : String) :
    Option (ℕ × Bool × Option ℤ × Bool) :=
  (Runs.run (Arkeo.step governed) genesis actions).bind fun v =>
    (Arkeo.step governed v (.msg (.openContract (order service)))).bind fun v' =>
      (v'.chain.contracts.lookup 1).map fun c =>
        (c.service, c.isOpen 0,
          ((handleOpenContract config (ordered name) {}).db.lookup 1).map CachedContract.service,
          v'.chain.events = v.chain.events ++ [(1, .openContract (ordered name))])

end Sample
open Arkeo.Sample Sample

/-- A contract for a service of the table is mirrored but for the amount paid. -/
theorem open_event_mirrored_at_setup : ∃ v v' c,
    Runs.run (Arkeo.step governed) genesis setup = some v ∧
    Arkeo.step governed v (.msg (.openContract (order service))) = some v' ∧
    v'.chain.contracts.lookup 1 = some c ∧
    (handleOpenContract config (ordered service) {}).db.lookup 1 =
      some { CachedContract.ofChain c with paid := none } := by
  have h : reflected setup service service = some (10, true, some 10, true) := by
    decide +kernel
  obtain ⟨v, hv, h⟩ := Option.bind_eq_some_iff.mp h
  obtain ⟨v', hv', h⟩ := Option.bind_eq_some_iff.mp h
  obtain ⟨c, hc, h⟩ := Option.map_eq_some_iff.mp h
  simp only [Prod.mk.injEq, decide_eq_true_eq] at h
  obtain ⟨hservice, hopen, -, hevent⟩ := h
  have hmine : (ordered service).provider = config.providerPubKey := rfl
  obtain ⟨c', hc', -, hiff⟩ :=
    open_event_mirrored genesis_ok hv hv' hevent hmine (by decide) {}
  obtain rfl : c = c' := Option.some.inj (hc.symm.trans hc')
  refine ⟨v, v', c, hv, hv', hc, hiff.mpr ⟨hopen, ?_⟩⟩
  rw [hservice]
  decide +kernel

/-- **A service that only the registry has is forgotten**: the copy of a contract for it
is of service `0`. -/
theorem service_forgotten : ∃ v v' c,
    Runs.run (Arkeo.step governed) genesis enrolled = some v ∧
    Arkeo.step governed v (.msg (.openContract (order "trial"))) = some v' ∧
    v'.chain.events = v.chain.events ++ [(1, .openContract (ordered "service-500"))] ∧
    v'.chain.contracts.lookup 1 = some c ∧ c.service = 500 ∧
    ∃ cc, (handleOpenContract config (ordered "service-500") {}).db.lookup 1 = some cc ∧
      cc.service = 0 ∧ cc ≠ CachedContract.ofChain c := by
  have h : reflected enrolled "trial" "service-500" = some (500, true, some 0, true) := by
    decide +kernel
  obtain ⟨v, hv, h⟩ := Option.bind_eq_some_iff.mp h
  obtain ⟨v', hv', h⟩ := Option.bind_eq_some_iff.mp h
  obtain ⟨c, hc, h⟩ := Option.map_eq_some_iff.mp h
  simp only [Prod.mk.injEq, decide_eq_true_eq] at h
  obtain ⟨hservice, -, hcopy, hevent⟩ := h
  obtain ⟨cc, hcc, hzero⟩ := Option.map_eq_some_iff.mp hcopy
  refine ⟨v, v', c, hv, hv', hevent, hc, hservice, cc, hcc, hzero, ?_⟩
  intro heq
  rw [heq] at hzero
  change (c.service : ℤ) = 0 at hzero
  omega

end Arkeo.Sentinel
