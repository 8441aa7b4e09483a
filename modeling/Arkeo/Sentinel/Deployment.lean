import Arkeo.History
import Arkeo.Sentinel.Fetch
import Arkeo.Sentinel.Gate

/-! # The sentinel beside the chain

The chain builds blocks of transactions, each of which delivers all of its messages or none.
A block tells the sentinel of its height with the settlements of its end, and of the openings,
closings and claims of its transactions: of each transaction once for each of the three, however
many of them are in it.  The sentinel handles these notices one at a time, in any order and any
time it likes, between the requests it gets and the calls of its provider; the hub answers from
the last block.  A restart loses the memory and the notices that were waiting.

The memory follows the chain by way of the notices, and by nothing else: no notice says
that a contract has been settled at the end of a block, nor that a second one was closed by a
transaction.  `Mirrored` is what is true of a copy all the same, as long as no block ends a
contract early of which a copy would be left (`Undisturbed`), and none is put into memory after
its closing was handled (`Heeded`).
-/
namespace Arkeo.Sentinel
open Exec Text

variable {cr : Crypto} {cfg : Config} {s s' : ChainState} {k : ℕ} {cc : CachedContract}

/-! ## Transactions -/

/-- A message that is delivered, or a transfer that is covered. -/
def succeeds (cr : Crypto) (w : Arkeo.World) : Arkeo.Action → Bool
  | .msg m => (deliver cr w.ctx m w.chain).isSome
  | .send src _ coin =>
      decide (0 < coin.amount ∧ coin.amount ≤ w.chain.balance (.user src) coin.denom)
  | .endBlock => false

/-- The chain after a transaction; `none` if one of its messages fails. -/
def transaction (cr : Crypto) (w : Arkeo.World) (tx : List Arkeo.Action) : Option Arkeo.World :=
  Runs.run (fun w a => if succeeds cr w a then Arkeo.step cr w a else none) w tx

/-- The events between two states of the chain. -/
def emitted (w w' : Arkeo.World) : List Event :=
  (w'.chain.events.drop w.chain.events.length).map Prod.snd

/-! ## The notices of a block -/

def Settlement.ofEvent (e : EventSettleContract) : Settlement where
  provider := e.provider
  contractId := e.contractId
  nonce := e.nonce

/-- A subscription to the transactions with some kind of message, and what is read out of the
event that goes with it. -/
structure Subscription where
  action : Msg → Bool
  parse : Event → Option Action

def openSubscription : Subscription where
  action
    | .openContract _ => true
    | _ => false
  parse
    | .openContract e => some (.opened e)
    | _ => none

def closeSubscription : Subscription where
  action
    | .closeContract _ => true
    | _ => false
  parse
    | .closeContract id provider service client delegate =>
        some (.closed id provider service client delegate)
    | _ => none

def claimSubscription : Subscription where
  action
    | .claimContractIncome _ => true
    | _ => false
  parse
    | .settleContract e => some (.settled (.ofEvent e))
    | _ => none

/-- The transaction has a message of the kind. -/
def Subscription.covers (sub : Subscription) (tx : List Arkeo.Action) : Bool :=
  tx.any fun a => match a with
    | .msg m => sub.action m
    | _ => false

/-- The notice of a transaction: `parseTypedEvent` takes the first event of the type, and looks
at no other. -/
def Subscription.notice (sub : Subscription) (tx : List Arkeo.Action) (es : List Event) :
    Option Action :=
  if sub.covers tx then es.findSome? sub.parse else none

/-- The notices of a transaction with its events. -/
def notices (tx : List Arkeo.Action) (es : List Event) : List Action :=
  [openSubscription, closeSubscription, claimSubscription].filterMap fun sub => sub.notice tx es

/-- Of two closings in one transaction the sentinel is told of the first. -/
example (m m' : MsgCloseContract) :
    notices [.msg (.closeContract m), .msg (.closeContract m')]
      [.closeContract 1 "provider" "service" "client" "client",
        .closeContract 2 "provider" "service" "client" "client"] =
      [.closed 1 "provider" "service" "client" "client"] := rfl

/-- The chain after the transactions of a block, and their notices; one that fails is left out. -/
def transactions (cr : Crypto) : Arkeo.World → List (List Arkeo.Action) → Arkeo.World × List Action
  | w, [] => (w, [])
  | w, tx :: txs =>
      match transaction cr w tx with
      | some w' =>
          let rest := transactions cr w' txs
          (rest.1, notices tx (emitted w w') ++ rest.2)
      | none => transactions cr w txs

/-- The settlements among the events of the end of a block. -/
def settlements (es : List Event) : List Settlement :=
  es.filterMap fun e => match e with
    | .settleContract e => some (.ofEvent e)
    | _ => none

/-- The hub knows the contracts of the last block; ids have 64 bits, and an unknown one
is answered with an error body. -/
def hubOf (cr : Crypto) (s : ChainState) : Hub := fun _ k =>
  match s.contracts.lookup k with
  | some c => if k < 2 ^ 64 then FetchContract.decode (contractJson c) cr else none
  | none => some {}

/-! ## Runs -/

/-- What the sentinel does of itself. -/
def Action.isCall : Action → Bool
  | .request _ | .openClaims | .markClaimed _ _ | .manage _ _ _ => true
  | _ => false

/-- The chain after a block, the notices the sentinel has not handled yet, and the sentinel. -/
structure Deployment where
  chain : Arkeo.World
  queue : List Action := []
  sentinel : World := {}

inductive Move where
  /-- A block with these transactions. -/
  | block (txs : List (List Arkeo.Action))
  /-- The sentinel handles one of the notices. -/
  | handle (n : ℕ)
  | call (a : Action)
  | restart
  deriving DecidableEq, Repr

namespace Deployment

/-- Two deployments with the same chain, queue and tables, entry by entry. -/
def same (d d' : Deployment) : Bool :=
  d.chain.same d'.chain && decide (d.queue = d'.queue ∧
    d.sentinel.state.db.entries = d'.sentinel.state.db.entries ∧
    d.sentinel.state.blockHeight = d'.sentinel.state.blockHeight ∧
    d.sentinel.state.claims.entries = d'.sentinel.state.claims.entries ∧
    d.sentinel.state.configs.entries = d'.sentinel.state.configs.entries ∧
    d.sentinel.state.fetches = d'.sentinel.state.fetches ∧
    d.sentinel.served = d'.sentinel.served)

theorem eq_of_same {d d' : Deployment} (h : d.same d' = true) : d = d' := by
  obtain ⟨hchain, h⟩ := Bool.and_eq_true_iff.mp h
  obtain ⟨_, _, ⟨⟨_, _⟩, _, ⟨_, _⟩, ⟨_, _⟩, _⟩, _⟩ := d
  obtain ⟨_, _, ⟨⟨_, _⟩, _, ⟨_, _⟩, ⟨_, _⟩, _⟩, _⟩ := d'
  obtain rfl := World.eq_of_same hchain
  obtain ⟨rfl, rfl, rfl, rfl, rfl, rfl, rfl⟩ := of_decide_eq_true h
  rfl

/-- The contracts of the last block. -/
def contracts (d : Deployment) : AList (fun _ : ℕ => Contract) := d.chain.chain.contracts

variable (cr) in
def hub (d : Deployment) : Hub := hubOf cr d.chain.chain

variable (cr) (cfg) in
def step (d : Deployment) : Move → Option Deployment
  | .block txs => do
      let told := transactions cr d.chain txs
      let w' ← Arkeo.step cr told.1 .endBlock
      some
        { d with
          chain := w'
          queue := d.queue ++
            .newBlock told.1.ctx.blockHeight (settlements (emitted told.1 w')) :: told.2 }
  | .handle n =>
      match d.queue[n]? with
      | none => none
      | some a =>
          (Sentinel.step cr cfg (d.hub cr) d.sentinel a).map fun sentinel =>
            { d with sentinel := sentinel, queue := d.queue.eraseIdx n }
  | .call a =>
      if a.isCall then
        (Sentinel.step cr cfg (d.hub cr) d.sentinel a).map fun sentinel =>
          { d with sentinel := sentinel }
      else none
  | .restart =>
      (Sentinel.step cr cfg (d.hub cr) d.sentinel .restart).map fun sentinel =>
        { d with sentinel := sentinel, queue := [] }

/-- The sentinel has handled every notice, and its height is that of the last block. -/
def CaughtUp (d : Deployment) : Prop :=
  d.queue = [] ∧ d.sentinel.state.blockHeight.toInt + 1 = d.chain.ctx.blockHeight.toInt

instance (d : Deployment) : Decidable d.CaughtUp :=
  inferInstanceAs (Decidable (d.queue = [] ∧ _))

end Deployment

/-! ## The condition -/

/-- The contract was settled ahead of its expiration. -/
def endedEarly (c : Contract) : Bool :=
  decide (0 < c.settlementHeight) && decide (c.settlementHeight < c.expiration)

/-- The notice of a closing that the sentinel heeds. -/
def closes (cfg : Config) (k : ℕ) : Action → Bool
  | .closed id provider _ _ _ => id = k && provider = cfg.providerPubKey
  | _ => false

/-- Among the notices is one that takes the contract out of memory. -/
def Told (cfg : Config) (k : ℕ) (queue : List Action) : Prop := ∃ a ∈ queue, closes cfg k a = true

instance (cfg : Config) (k : ℕ) (queue : List Action) : Decidable (Told cfg k queue) :=
  inferInstanceAs (Decidable (∃ a ∈ queue, _))

/-- The contract was settled early, and had not been settled before. -/
def endsEarly (s s' : ChainState) (k : ℕ) : Bool :=
  match s'.contracts.lookup k with
  | some c' =>
      endedEarly c' && (s.contracts.lookup k).all fun c => c.settlementHeight = 0
  | none => false

/-- Of the contracts that the block has ended early, the sentinel has none in memory, or is
still to be told of its closing. -/
def Undisturbed (cfg : Config) (d d' : Deployment) : Prop :=
  ∀ k ∈ d'.contracts.keys, endsEarly d.chain.chain d'.chain.chain k = true →
    (d.sentinel.state.db.lookup k).isSome = true → Told cfg k d'.queue

instance (cfg : Config) (d d' : Deployment) : Decidable (Undisturbed cfg d d') :=
  inferInstanceAs (Decidable (∀ k ∈ d'.contracts.keys, _))

/-- What the notice puts into memory has not ended early, or the sentinel is still to be told of
its closing. -/
def Heeded (cfg : Config) (d : Deployment) (a : Action) (queue : List Action) : Prop :=
  match a with
  | .opened e =>
      e.provider = cfg.providerPubKey → ∀ c ∈ d.contracts.lookup e.contractId,
        endedEarly c = true → Told cfg e.contractId queue
  | _ => True

instance (cfg : Config) (d : Deployment) (a : Action) (queue : List Action) :
    Decidable (Heeded cfg d a queue) := by
  unfold Heeded
  split <;> infer_instance

/-- The contract was finally settled before the height. -/
def settledBefore (c : Contract) (height : Int64) : Bool :=
  decide (0 < c.settlementHeight) && decide (c.settlementHeight < height)

/-- The request has no credentials that can be read, and the contract that is found for
it is open and lists its address. -/
def waived (cr : Crypto) (cfg : Config) (d : Deployment) (r : Request) : Bool :=
  !r.isOptions && (r.fetchArkAuth cr cfg).isNone &&
    match memStoreGet (d.hub cr) r.fallbackId d.sentinel.state with
    | (some c, t) => isWhitelisted c r t && c.isOpenAuthorization
    | (none, _) => false

/-- **The guard.**  No block ends a contract early of which a copy is left, none is copied out of
an old notice, and the way for credentials that cannot be read is not taken on a settled
contract. -/
def Guard (cr : Crypto) (cfg : Config) (d : Deployment) : Move → Prop
  | .block txs => ∀ d' ∈ d.step cr cfg (.block txs), Undisturbed cfg d d'
  | .handle n => ∀ a ∈ d.queue[n]?, Heeded cfg d a (d.queue.eraseIdx n)
  | .call (.request r) =>
      d.CaughtUp → waived cr cfg d r = true → ∀ c ∈ d.contracts.lookup r.fallbackId,
        settledBefore c d.sentinel.state.blockHeight = false
  | _ => True

instance (cr : Crypto) (cfg : Config) (d : Deployment) (m : Move) :
    Decidable (Guard cr cfg d m) := by
  unfold Guard
  split <;> infer_instance

/-! ## Copies -/

/-- A copy has the term of its contract, and it has the end of it too unless it is from
before and the sentinel is still to be told of the closing. -/
def Mirrored (cfg : Config) (s : ChainState) (queue : List Action) (k : ℕ) (cc : CachedContract) :
    Prop :=
  ∃ c, s.contracts.lookup k = some c ∧ cc.height = c.height ∧ cc.duration = c.duration ∧
    (cc.settlementHeight = c.settlementHeight ∨
      cc.settlementHeight = 0 ∧ (endedEarly c = true → Told cfg k queue))

section Mirrored
variable {queue queue' new : List Action}

theorem mirrored_nonceFree : NonceFree (Mirrored cfg s queue) := fun _ _ _ h => h

theorem Told.append (h : Told cfg k queue) : Told cfg k (queue ++ new) := by
  obtain ⟨a, ha, hcloses⟩ := h
  exact ⟨a, List.mem_append_left _ ha, hcloses⟩

/-- Handling a notice that does not close the contract. -/
theorem Told.eraseIdx {n : ℕ} {a : Action} (h : Told cfg k queue) (hn : queue[n]? = some a)
    (ha : closes cfg k a ≠ true) : Told cfg k (queue.eraseIdx n) := by
  obtain ⟨b, hb, hcloses⟩ := h
  obtain ⟨hlt, rfl⟩ := List.getElem?_eq_some_iff.mp hn
  have hperm := List.getElem_cons_eraseIdx_perm hlt
  rcases List.mem_cons.mp (hperm.mem_iff.mpr hb) with rfl | hmem
  · exact absurd hcloses ha
  · exact ⟨b, hmem, hcloses⟩

/-- With other notices waiting, when the sentinel is still to be told by them. -/
theorem Mirrored.told (h : Mirrored cfg s queue k cc) (ha : Told cfg k queue → Told cfg k queue') :
    Mirrored cfg s queue' k cc := by
  obtain ⟨c, hc, hheight, hduration, hend⟩ := h
  exact ⟨c, hc, hheight, hduration, hend.imp_right fun ⟨hcopy, htold⟩ =>
    ⟨hcopy, fun he => ha (htold he)⟩⟩

/-- A block, on a contract that was there before. -/
theorem Mirrored.later {lo hi : ℤ} (h : Mirrored cfg s queue k cc)
    (hkept : ∀ c, s.contracts.lookup k = some c →
      ∃ c', s'.contracts.lookup k = some c' ∧ c.Later lo hi c')
    (htold : endsEarly s s' k = true → Told cfg k (queue ++ new)) :
    Mirrored cfg s' (queue ++ new) k cc := by
  obtain ⟨c, hc, hheight, hduration, hend⟩ := h
  obtain ⟨c', hc', hlater⟩ := hkept c hc
  have hheight' : c'.height = c.height := hlater.of_terms Contract.height fun _ => rfl
  have hduration' : c'.duration = c.duration := hlater.of_terms Contract.duration fun _ => rfl
  refine ⟨c', hc', hheight.trans hheight'.symm, hduration.trans hduration'.symm, ?_⟩
  rcases hlater.settled with hsame | ⟨hzero, -⟩
  · have hearly : endedEarly c' = endedEarly c := by
      unfold endedEarly
      rw [hsame, hlater.expiration_eq]
    rw [hsame, hearly]
    exact hend.imp_right fun ⟨hcopy, hold⟩ => ⟨hcopy, fun he => (hold he).append⟩
  · have hcopy : cc.settlementHeight = 0 := by
      rcases hend with heq | ⟨heq, -⟩
      · exact heq.trans hzero
      · exact heq
    refine .inr ⟨hcopy, fun he => htold ?_⟩
    simp [endsEarly, hc', hc, he, hzero]

/-- When no notice is waiting, a contract that was settled before is not open in the
copy. -/
theorem Mirrored.settledBefore {c : Contract} {height : Int64} (h : Mirrored cfg s [] k cc)
    (hc : s.contracts.lookup k = some c) (hopen : cc.isExpired height = false) :
    settledBefore c height = false := by
  obtain ⟨d, hd, hheight, hduration, hend⟩ := h
  obtain rfl := Option.some.inj (hc.symm.trans hd)
  have hexpiration : cc.life.expiration = c.expiration := by
    unfold Contract.expiration
    rw [← hheight, ← hduration]
    rfl
  simp only [CachedContract.isExpired, Contract.isExpired, Contract.isOpen, Bool.not_eq_false',
    Bool.and_eq_true, Bool.not_eq_true', hexpiration] at hopen
  obtain ⟨⟨-, hterm⟩, hsettled⟩ := hopen
  rcases hend with heq | ⟨hcopy, htold⟩
  · unfold Sentinel.settledBefore
    rw [← heq]
    exact hsettled
  · -- the copy is from before the settlement, which then was not early
    have hnot : endedEarly c = false := by
      rw [Bool.eq_false_iff]
      intro hearly
      obtain ⟨a, ha, -⟩ := htold hearly
      cases ha
    simp only [endedEarly, Sentinel.settledBefore, Bool.and_eq_false_iff, decide_eq_false_iff_not,
      Int64.lt_iff_toInt_lt] at hnot hterm ⊢
    omega

end Mirrored

/-- What the hub answers is a copy. -/
theorem hubOf_answered {ctx : Context} (hi : Inv cr ctx s) (cfg : Config) (queue : List Action)
    (st : State) (k : ℕ) : Answered (Mirrored cfg s queue) (hubOf cr s) st k := by
  intro _ n r height hr hopen
  unfold hubOf at hr
  split at hr
  · rename_i c hc
    have hst := hi.stored k c hc
    split at hr
    · rename_i hk
      have hfetched : fetched cr c = some r.contract := by rw [fetched, hr]; rfl
      have hknown := fetched_some hst.wf hfetched
      rw [hknown]
      refine ⟨?_, c, hc, rfl, rfl, .inl rfl⟩
      change (parseUint c.id.repr).1 = k
      rw [hst.id_eq, parseUint_natRepr hk]
    · cases hr
  · obtain rfl := Option.some.inj hr
    rw [isExpired_zero] at hopen
    cases hopen

/-! ## Openings -/

variable {w v w' : Arkeo.World} {a : Arkeo.Action} {e : EventOpenContract}

/-- No opening is among the events since. -/
def Unopened (s t : ChainState) : Prop :=
  ∃ es, t.events = s.events ++ es ∧ ∀ x ∈ es, ∀ e, x.2 ≠ .openContract e

theorem Unopened.of_eq (h : s'.events = s.events) : Unopened s s' :=
  ⟨[], h.trans (List.append_nil _).symm, nofun⟩

theorem Unopened.append {t : ChainState} {x : Int64 × Event} (h : Unopened s t)
    (ht : s'.events = t.events ++ [x]) (hx : ∀ e, x.2 ≠ .openContract e) : Unopened s s' := by
  obtain ⟨es, hes, hnone⟩ := h
  refine ⟨es ++ [x], by rw [ht, hes, List.append_assoc], ?_⟩
  intro y hy
  rcases List.mem_append.mp hy with hy | hy
  · exact hnone y hy
  · rw [List.mem_singleton.mp hy]
    exact hx

theorem Unopened.settle {ctx : Context} {t : ChainState} (h : Unopened s t) (c : Contract)
    (isFinal : Bool) : Unopened s (t.settle cr ctx c isFinal) :=
  h.append (t.settle_events cr ctx c isFinal) nofun

/-- The openings between two states of the chain are of contracts that were not there before. -/
structure Opens (w w' : Arkeo.World) : Prop where
  events : ∃ es, w'.chain.events = w.chain.events ++ es
  opened : ∀ e, .openContract e ∈ emitted w w' → w.chain.contracts.lookup e.contractId = none ∧
    ∃ c, w'.chain.contracts.lookup e.contractId = some c ∧ e.height = c.height ∧
      e.duration = c.duration

theorem emitted_append {es : List (Int64 × Event)} (h : w'.chain.events = w.chain.events ++ es) :
    emitted w w' = es.map Prod.snd := by
  unfold emitted
  rw [h, List.drop_left]

theorem Unopened.opens (h : Unopened w.chain w'.chain) : Opens w w' := by
  obtain ⟨es, h, hes⟩ := h
  refine ⟨⟨es, h⟩, fun e he => ?_⟩
  rw [emitted_append h] at he
  obtain ⟨x, hx, hxe⟩ := List.mem_map.mp he
  exact absurd hxe (hes x hx e)

/-- A step, an opening of which is of the contract that it adds. -/
theorem opens_step (hi : Inv cr w.ctx w.chain) (hstep : Arkeo.step cr w a = some w') :
    Opens w w' := by
  cases Arkeo.step_outcome hi hstep with
  | rejected m => exact (Unopened.of_eq rfl).opens
  | unsent src dst coin => exact (Unopened.of_eq rfl).opens
  | provider m s' hdel hm hq hd =>
    obtain ⟨es, hes, hquiet⟩ := hq.events
    have hnone : Unopened w.chain s' := by
      refine ⟨es, hes, fun x hx e he => ?_⟩
      have hxq := hquiet x hx
      rw [he] at hxq
      cases hxq
    exact hnone.opens
  | opened msg signer service c hsvc hv hc ho =>
    have hes := ChainState.opened_events (s := w.chain) w.ctx c signer
    refine ⟨⟨_, hes⟩, fun e he => ?_⟩
    rw [emitted_append hes] at he
    obtain rfl : e = openEvent c := by simpa using he
    constructor
    · change w.chain.contracts.lookup c.id = none
      rw [ho.id_eq]
      exact hi.lookup_next
    · refine ⟨c, ?_, rfl, rfl⟩
      change (w.chain.opened w.ctx signer c).contracts.lookup c.id = some c
      rw [ChainState.opened_lookup, if_pos rfl]
  | closed msg c t hd hc hid hopen hby hs ht =>
    have hrelisted : Unopened w.chain (w.chain.relisted w.ctx c) := by
      refine .of_eq ?_
      unfold ChainState.relisted
      split <;> rfl
    have hclosed : Unopened w.chain t := by
      rw [ht]
      exact hrelisted.settle c c.isSubscription
    have hevent : ∀ e, closeEvent c ≠ .openContract e := by
      intro e h
      unfold closeEvent at h
      cases h
    exact (hclosed.append rfl hevent).opens
  | claimed msg c hc hid hn hset hf =>
    have hclaimed : Unopened w.chain (w.chain.settle cr w.ctx (c.raiseNonce msg.nonce) false) :=
      (Unopened.of_eq rfl).settle (c.raiseNonce msg.nonce) false
    exact hclaimed.opens
  | sent src dst coin h0 hle => exact (Unopened.of_eq (ChainState.sent_events ..)).opens
  | ended ctx' hctx =>
    have hended : Unopened w.chain (w.chain.expireAll cr w.ctx (w.chain.listedAt w.ctx.blockHeight)) := by
      refine ChainState.expireAll_induct ?_ hi (.of_eq rfl) _
      intro t c _ _ _ ht
      exact ht.settle _ true
    exact hended.opens

theorem Opens.refl (w : Arkeo.World) : Opens w w := (Unopened.of_eq rfl).opens

/-- What an opening tells of its contract stays true of it. -/
theorem opening_later {lo hi : ℤ}
    (h : ∃ c, s.contracts.lookup e.contractId = some c ∧ e.height = c.height ∧
      e.duration = c.duration)
    (hkept : ∀ c, s.contracts.lookup e.contractId = some c →
      ∃ c', s'.contracts.lookup e.contractId = some c' ∧ c.Later lo hi c') :
    ∃ c, s'.contracts.lookup e.contractId = some c ∧ e.height = c.height ∧
      e.duration = c.duration := by
  obtain ⟨c, hc, hheight, hduration⟩ := h
  obtain ⟨c', hc', hlater⟩ := hkept c hc
  refine ⟨c', hc', hheight.trans ?_, hduration.trans ?_⟩
  · exact (hlater.of_terms Contract.height fun _ => rfl).symm
  · exact (hlater.of_terms Contract.duration fun _ => rfl).symm

/-- A contract that is not there was not there before. -/
theorem lookup_none_of_later {lo hi : ℤ} (hnone : s'.contracts.lookup k = none)
    (hkept : ∀ c, s.contracts.lookup k = some c →
      ∃ c', s'.contracts.lookup k = some c' ∧ c.Later lo hi c') : s.contracts.lookup k = none := by
  rw [Option.eq_none_iff_forall_ne_some]
  intro c hc
  obtain ⟨c', hc', -⟩ := hkept c hc
  rw [hnone] at hc'
  cases hc'

/-- The openings of a run. -/
theorem opens_run (hi : Inv cr w.ctx w.chain) {actions : List Arkeo.Action}
    (hrun : Runs.run (Arkeo.step cr) w actions = some w') : Opens w w' := by
  induction actions generalizing w with
  | nil =>
    obtain rfl := Option.some.inj hrun
    exact .refl w
  | cons a actions ih =>
    obtain ⟨v, hstep, hrest⟩ := Runs.run_cons.mp hrun
    have ho := Arkeo.step_outcome hi hstep
    obtain ⟨⟨es, hes⟩, hopened⟩ := opens_step hi hstep
    obtain ⟨⟨es', hes'⟩, hopened'⟩ := ih (ho.inv hi) hrest
    have hall : w'.chain.events = w.chain.events ++ (es ++ es') := by
      rw [hes', hes, List.append_assoc]
    refine ⟨⟨_, hall⟩, fun e he => ?_⟩
    rw [emitted_append hall, List.map_append, ← emitted_append hes, ← emitted_append hes'] at he
    rcases List.mem_append.mp he with he | he
    · obtain ⟨hnone, hopening⟩ := hopened e he
      exact ⟨hnone, opening_later hopening fun _ => run_later (ho.inv hi) hrest⟩
    · obtain ⟨hnone, hopening⟩ := hopened' e he
      exact ⟨lookup_none_of_later hnone ((ho.later hi).kept _), hopening⟩

/-! ## Blocks -/

/-- A transaction is a run of the chain. -/
theorem transaction_run {tx : List Arkeo.Action} (h : transaction cr w tx = some w') :
    Runs.run (Arkeo.step cr) w tx = some w' := by
  unfold transaction at h
  induction tx generalizing w with
  | nil => exact h
  | cons a tx ih =>
    obtain ⟨v, hstep, hrest⟩ := Runs.run_cons.mp h
    split at hstep
    · exact Runs.run_cons.mpr ⟨v, hstep, ih hrest⟩
    · cases hstep

/-- So are the transactions of a block. -/
theorem transactions_run (cr : Crypto) (w : Arkeo.World) (txs : List (List Arkeo.Action)) :
    ∃ actions, Runs.run (Arkeo.step cr) w actions = some (transactions cr w txs).1 := by
  induction txs generalizing w with
  | nil => exact ⟨[], rfl⟩
  | cons tx txs ih =>
    rw [transactions]
    cases htx : transaction cr w tx with
    | none => exact ih w
    | some v =>
      obtain ⟨actions, hrun⟩ := ih v
      exact ⟨tx ++ actions, Runs.run_append.mpr ⟨v, transaction_run htx, hrun⟩⟩

/-- The notice of an opening is of an event of the transaction. -/
theorem mem_notices_opened {tx : List Arkeo.Action} {es : List Event} (h : .opened e ∈ notices tx es) :
    .openContract e ∈ es := by
  obtain ⟨sub, hsub, hnotice⟩ := List.mem_filterMap.mp h
  unfold Subscription.notice at hnotice
  split at hnotice
  swap
  · cases hnotice
  obtain ⟨ev, hev, hparse⟩ := List.exists_of_findSome?_eq_some hnotice
  simp only [List.mem_cons, List.not_mem_nil, or_false] at hsub
  rcases hsub with rfl | rfl | rfl
  · cases ev <;> cases hparse
    exact hev
  · cases ev <;> cases hparse
  · cases ev <;> cases hparse

/-- The openings among the notices of a block are of contracts that the block has added. -/
theorem transactions_opened (hi : Inv cr w.ctx w.chain) {txs : List (List Arkeo.Action)}
    (hend : Arkeo.step cr (transactions cr w txs).1 a = some w')
    (he : .opened e ∈ (transactions cr w txs).2) :
    w.chain.contracts.lookup e.contractId = none ∧
      ∃ c, w'.chain.contracts.lookup e.contractId = some c ∧ e.height = c.height ∧
        e.duration = c.duration := by
  induction txs generalizing w with
  | nil => cases he
  | cons tx txs ih =>
    rw [transactions] at he hend
    cases htx : transaction cr w tx with
    | none =>
      rw [htx] at he hend
      exact ih hi hend he
    | some v =>
      rw [htx] at he hend
      have hrun := transaction_run htx
      have hiv : Inv cr v.ctx v.chain := Runs.run_induct (P := fun w => Inv cr w.ctx w.chain)
        (fun _ _ _ hi hs => (Arkeo.step_outcome hi hs).inv hi) hi hrun
      rcases List.mem_append.mp he with he | he
      · obtain ⟨hnone, hopening⟩ := (opens_run hi hrun).opened e (mem_notices_opened he)
        obtain ⟨actions, hrest⟩ := transactions_run cr v txs
        have hall := Runs.run_append.mpr ⟨_, hrest, Runs.run_cons.mpr ⟨w', hend, Runs.run_nil w'⟩⟩
        exact ⟨hnone, opening_later hopening fun _ => run_later hiv hall⟩
      · obtain ⟨hnone, hopening⟩ := ih hiv hend he
        exact ⟨lookup_none_of_later hnone fun _ => run_later hi hrun, hopening⟩

/-! ## Every move -/

variable {d d' : Deployment} {m : Move}

/-- What every move keeps. -/
structure Sound (cr : Crypto) (cfg : Config) (d : Deployment) : Prop where
  inv : Inv cr d.chain.ctx d.chain.chain
  memory : Holds (Mirrored cfg d.chain.chain d.queue) d.sentinel.state
  announced : ∀ e, .opened e ∈ d.queue → ∃ c, d.contracts.lookup e.contractId = some c ∧
    e.height = c.height ∧ e.duration = c.duration

/-- A block, inverted: it is a run of the chain, and its notices wait behind the others. -/
theorem step_block {txs : List (List Arkeo.Action)} (h : d.step cr cfg (.block txs) = some d') :
    ∃ height es, Arkeo.step cr (transactions cr d.chain txs).1 .endBlock = some d'.chain ∧
      d'.queue = d.queue ++ .newBlock height es :: (transactions cr d.chain txs).2 ∧
      d'.sentinel = d.sentinel := by
  simp only [Deployment.step] at h
  obtain ⟨w', hend, h⟩ := Option.bind_eq_some_iff.mp h
  obtain rfl := Option.some.inj h
  exact ⟨_, _, hend, rfl, rfl⟩

theorem block_run {txs : List (List Arkeo.Action)}
    (hend : Arkeo.step cr (transactions cr w txs).1 .endBlock = some w') :
    ∃ actions, Runs.run (Arkeo.step cr) w actions = some w' := by
  obtain ⟨actions, hrun⟩ := transactions_run cr w txs
  exact ⟨_, Runs.run_append.mpr ⟨_, hrun, Runs.run_cons.mpr ⟨w', hend, Runs.run_nil w'⟩⟩⟩

/-- Handling a notice, inverted. -/
theorem step_handle {n : ℕ} (h : d.step cr cfg (.handle n) = some d') :
    ∃ a, d.queue[n]? = some a ∧
      Sentinel.step cr cfg (d.hub cr) d.sentinel a = some d'.sentinel ∧ d'.chain = d.chain ∧
      d'.queue = d.queue.eraseIdx n := by
  simp only [Deployment.step] at h
  split at h
  · cases h
  · rename_i a ha
    obtain ⟨sentinel, hs, rfl⟩ := Option.map_eq_some_iff.mp h
    exact ⟨a, ha, hs, rfl, rfl⟩

theorem Sound.answered (h : Sound cr cfg d) (queue : List Action) (st : State) (k : ℕ) :
    Answered (Mirrored cfg d.chain.chain queue) (d.hub cr) st k :=
  hubOf_answered h.inv cfg queue st k

theorem Sound.block (h : Sound cr cfg d) {txs : List (List Arkeo.Action)}
    (hg : Guard cr cfg d (.block txs)) (hstep : d.step cr cfg (.block txs) = some d') :
    Sound cr cfg d' := by
  have hundisturbed : Undisturbed cfg d d' := hg d' hstep
  obtain ⟨height, es, hend, hqueue, hsentinel⟩ := step_block hstep
  obtain ⟨actions, hrun⟩ := block_run hend
  have hkept := fun k c => run_later h.inv hrun (k := k) (c := c)
  refine ⟨?_, ?_, ?_⟩
  · exact Runs.run_induct (P := fun w => Inv cr w.ctx w.chain)
      (fun _ _ _ hi hs => (Arkeo.step_outcome hi hs).inv hi) h.inv hrun
  · intro k cc hcc
    rw [hsentinel] at hcc
    obtain ⟨hid, hm⟩ := h.memory k cc hcc
    refine ⟨hid, ?_⟩
    rw [hqueue]
    refine hm.later (hkept k) fun hearly => ?_
    rw [← hqueue]
    obtain ⟨c, hc, -⟩ := id hm
    obtain ⟨c', hc', -⟩ := hkept k c hc
    refine hundisturbed k ?_ hearly (by rw [hcc]; rfl)
    exact AList.mem_keys.mp (AList.lookup_isSome.mp (by rw [Deployment.contracts, hc']; rfl))
  · intro e he
    rw [hqueue] at he
    rcases List.mem_append.mp he with hold | hnew
    · exact opening_later (h.announced e hold) (hkept _)
    · rcases List.mem_cons.mp hnew with hblock | hnew
      · cases hblock
      · exact (transactions_opened h.inv hend hnew).2

theorem Sound.handle (h : Sound cr cfg d) {n : ℕ} (hg : Guard cr cfg d (.handle n))
    (hstep : d.step cr cfg (.handle n) = some d') : Sound cr cfg d' := by
  obtain ⟨a, ha, hs, hchain, hqueue⟩ := step_handle hstep
  have hheeded : Heeded cfg d a (d.queue.eraseIdx n) := hg a ha
  -- what waits besides the notice waits with it
  have hrest : ∀ k, Told cfg k (d.queue.eraseIdx n) → Told cfg k d.queue :=
    fun k ⟨b, hb, hcloses⟩ => ⟨b, List.mem_of_mem_eraseIdx hb, hcloses⟩
  have hafter := h.memory.step mirrored_nonceFree (h.answered d.queue d.sentinel.state)
    (fun e he hmine => by
      subst he
      obtain ⟨c, hc, hheight, hduration⟩ := h.announced e (List.mem_of_getElem? ha)
      exact ⟨c, hc, hheight, hduration, .inr ⟨rfl, fun hearly => hrest _ (hheeded hmine c hc hearly)⟩⟩)
    hs
  refine ⟨by rw [hchain]; exact h.inv, ?_, ?_⟩
  · intro k cc hcc
    rw [hchain, hqueue]
    obtain ⟨hid, hm⟩ := hafter k cc hcc
    refine ⟨hid, hm.told fun htold => htold.eraseIdx ha fun hcloses => ?_⟩
    -- what the notice closes is not in memory any more
    cases a with
    | closed id provider service client delegate =>
      obtain ⟨rfl, rfl⟩ : id = k ∧ provider = cfg.providerPubKey := by
        simpa [closes] using hcloses
      obtain hs := Option.some.inj hs
      rw [← hs] at hcc
      rw [show _ = _ from handleCloseContract_lookup id service client delegate d.sentinel.state id,
        if_pos rfl] at hcc
      cases hcc
    | _ => cases hcloses
  · intro e he
    rw [hqueue] at he
    rw [Deployment.contracts, hchain]
    exact h.announced e (List.mem_of_mem_eraseIdx he)

theorem Sound.call (h : Sound cr cfg d) {a : Action} (hstep : d.step cr cfg (.call a) = some d') :
    Sound cr cfg d' := by
  simp only [Deployment.step] at hstep
  split at hstep
  · rename_i hcall
    obtain ⟨sentinel, hs, rfl⟩ := Option.map_eq_some_iff.mp hstep
    refine ⟨h.inv, ?_, h.announced⟩
    refine h.memory.step mirrored_nonceFree
      (h.answered d.queue d.sentinel.state) ?_ hs
    rintro e rfl -
    cases hcall
  · cases hstep

theorem Sound.restart (h : Sound cr cfg d) (hstep : d.step cr cfg .restart = some d') :
    Sound cr cfg d' := by
  obtain rfl := Option.some.inj hstep
  exact ⟨h.inv, holds_of_empty rfl, nofun⟩

theorem step_sound (h : Sound cr cfg d) (hg : Guard cr cfg d m)
    (hstep : d.step cr cfg m = some d') : Sound cr cfg d' := by
  cases m with
  | block txs => exact h.block hg hstep
  | handle n => exact h.handle hg hstep
  | call a => exact h.call hstep
  | restart => exact h.restart hstep

/-- A sentinel that starts with the chain. -/
theorem sound_start (hg : Genesis w) : Sound cr cfg { chain := w } :=
  ⟨hg.inv, holds_of_empty rfl, nofun⟩

/-- **No service after the settlement.**  In a run in which no block ends a contract early
of which the sentinel keeps a copy, a sentinel that has caught up with the chain serves no
request as paid on a contract that was settled before its height. -/
theorem served_before_settlement (hg : Genesis w) {moves : List Move} {r : Request}
    (hguard : Runs.Guarded (Deployment.step cr cfg) (Guard cr cfg) { chain := w }
      (moves ++ [.call (.request r)]))
    (hrun : Runs.run (Deployment.step cr cfg) { chain := w } moves = some d)
    (hcaught : d.CaughtUp) {charge : Charge}
    (hpaid : (auth cr cfg (d.hub cr) r d.sentinel.state).1 = .paid charge) {c : Contract}
    (hc : d.contracts.lookup charge.contractId = some c) :
    ¬(0 < c.settlementHeight ∧ c.settlementHeight < d.sentinel.state.blockHeight) := by
  obtain ⟨hmoves, hlast⟩ := Runs.guarded_append.mp hguard
  have hsound : Sound cr cfg d := Runs.run_induct_of_guarded
    (fun _ _ _ h hg hstep => step_sound h hg hstep) (sound_start hg) hmoves hrun
  suffices hbefore : settledBefore c d.sentinel.state.blockHeight = false by
    simpa [settledBefore] using hbefore
  obtain ⟨hopt, hserved⟩ := auth_paid_iff.mp hpaid
  cases hserved with
  | bare cc t haa hget ho hw =>
    refine (hlast d hrun).1 hcaught ?_ c hc
    simp [waived, hopt, haa, hget, ho, hw]
  | tiered aa cc cc' t t' haa hfirst he hget hs =>
    have hmemory := hsound.memory
    rw [hcaught.1] at hmemory
    have ht := hmemory.contractOf (hsound.answered [] d.sentinel.state aa.contractId)
    have hheight := contractOf_blockHeight (d.hub cr) aa d.sentinel.state
    have hheight' := memStoreGet_blockHeight (d.hub cr) aa.contractId t
    rw [hfirst] at ht hheight
    rw [hget] at hheight'
    simp only at hheight hheight'
    -- the contract that was found last is not expired
    have hopen := hs.admits.unexpired
    rw [hheight'] at hopen
    have hfound := (ht.memStoreGet (hsound.answered [] t aa.contractId)).2
    obtain ⟨-, hcopy⟩ := hfound cc' (congrArg Prod.fst hget) hopen
    rw [hheight] at hopen
    exact hcopy.settledBefore hc hopen

namespace Sample
open Arkeo.Sample

/-- A contract of ten blocks. -/
def openFor (type : ContractType) (deposit : ℤ) : Arkeo.Action :=
  .msg (.openContract { openMsg type deposit with duration := 10 })

/-- Transactions of one message. -/
def each (actions : List Arkeo.Action) : List (List Arkeo.Action) := actions.map fun a => [a]

/-- The sentinel sees the client open a subscription and a pay-as-you-go contract. -/
def attended : List Move :=
  [.block (each (setup ++ [openFor .subscription 100, openFor .payAsYouGo 100])), .handle 0,
    .handle 0, .handle 0]

def paidQuery : Request := { arkauth := clientHeader }

theorem paidQuery_fetched : paidQuery.fetchArkAuth crypto config = some clientAuth :=
  client_fetched rfl rfl

theorem paidQuery_waived (d : Deployment) : waived crypto config d paidQuery = false := by
  rw [waived, paidQuery_fetched]
  rfl

/-- Credentials that cannot be read. -/
def bareQuery : Request := { arkauth := "?", query := [("contract_id", "2")] }

/-- The client closes the pay-as-you-go contract and the sentinel forgets it, until a
request makes it ask the hub; the block after settles the contract. -/
def reminded : List Move :=
  attended ++
    [.block
      (each [.msg (.closeContract
        { creator := client.account, contractId := 2, client := some client.pubKey
          delegate := none })]),
     .handle 0, .handle 0, .call (.request bareQuery), .block [], .handle 0, .block [], .handle 0]

/-! The chain and the sentinel after the block of `attended`, and after its notices, written
out. -/

def openLong (type : ContractType) (id : ℕ) : Contract :=
  { freshContract type 100 id with duration := 10 }

def copyLong (type : ContractType) (id : ℕ) : CachedContract where
  provider := provider.pubKey
  service := 10
  client := client.pubKey
  delegate := client.pubKey
  type := type
  height := 1
  duration := 10
  rate := (denom, some 10)
  deposit := some 100
  id := id
  settlementDuration := 1
  queriesPerMinute := 1

theorem notified_pos : 0 < (2 : Int64).toInt := by decide

theorem notified_fits : (2 : Int64).toInt + (fetchConfig .maxContractLength).toInt < 2 ^ 63 := by
  decide

def notified : Deployment where
  chain :=
    { ctx := { blockHeight := 2, chainID := "arkeo", pos := notified_pos, fits := notified_fits }
      chain := { contracted.chain with
        contracts := AList.insert 2 (openLong .payAsYouGo 2)
          (AList.insert 1 (openLong .subscription 1) ∅)
        expirationSets := AList.insert 12 ⟨12, [2]⟩ (AList.insert 11 ⟨11, [1]⟩ ∅)
        bank := AList.insert (.module .contract, denom) 200
          (AList.insert (.user client.addr, denom) 959999800
          (AList.insert (.module .reserve, denom) 40000000
          (AList.insert (.module .provider, denom) 100000000
          (AList.insert (.user provider.addr, denom) 900000000 ∅))))
        journal := offering.chain.journal ++
          [⟨.user client.addr, .module .reserve, ⟨denom, 20000000⟩, .openCost⟩,
           ⟨.user client.addr, .module .contract, ⟨denom, 100⟩, .deposit 1⟩,
           ⟨.user client.addr, .module .reserve, ⟨denom, 20000000⟩, .openCost⟩,
           ⟨.user client.addr, .module .contract, ⟨denom, 100⟩, .deposit 2⟩]
        events := offering.chain.events ++
          [freshEvent (openLong .subscription 1), freshEvent (openLong .payAsYouGo 2)] }
      accepted := (setup ++ [openFor .subscription 100, openFor .payAsYouGo 100]).filterMap isMsg }
  queue :=
    let told (type : ContractType) (id : ℕ) : Action :=
      .opened
        { provider := provider.pubKey, contractId := id, service := service
          client := client.pubKey, delegate := client.pubKey, type := type, height := 1
          duration := 10, rate := ⟨denom, 10⟩, openCost := 20000000, deposit := 100
          settlementDuration := 1, authorization := .strict, queriesPerMinute := 1 }
    [.newBlock 1 [], told .subscription 1, told .payAsYouGo 2]

def attending : Deployment where
  chain := notified.chain
  sentinel :=
    { state :=
        { db := AList.insert 2 (copyLong .payAsYouGo 2)
            (AList.insert 1 (copyLong .subscription 1) ∅)
          blockHeight := 1 } }

theorem run_eq {d d' : Deployment} {moves : List Move}
    (h : (Runs.run (Deployment.step crypto config) d moves).any (Deployment.same d') = true) :
    Runs.run (Deployment.step crypto config) d moves = some d' := by
  obtain ⟨v, hv, h⟩ := (Option.any_eq_true _ _).mp h
  rw [hv, Deployment.eq_of_same h]

theorem notified_run : Runs.run (Deployment.step crypto config) { chain := genesis }
    (attended.take 1) = some notified := by
  refine run_eq ?_
  decide +kernel

theorem attending_run : Runs.run (Deployment.step crypto config) { chain := genesis } attended =
    some attending := by
  rw [show attended = attended.take 1 ++ attended.drop 1 from rfl, Runs.run_append_of notified_run]
  exact run_eq (by decide +kernel)

/-- A query is served while the contract is open. -/
theorem attended_run : ∃ d c,
    Runs.run (Deployment.step crypto config) { chain := genesis } attended = some d ∧
    d.CaughtUp ∧ d.contracts.lookup 2 = some c ∧
    Runs.Guarded (Deployment.step crypto config) (Guard crypto config) { chain := genesis }
      (attended ++ [.call (.request paidQuery)]) ∧
    (auth crypto config (d.hub crypto) paidQuery d.sentinel.state).1 =
      .paid { contractId := 2, nonce := 5, isOpen := false } := by
  have h : ((Runs.run (Deployment.step crypto config) { chain := genesis } attended).bind fun d =>
      (d.contracts.lookup 2).map fun _ =>
        (decide d.CaughtUp, (auth crypto config (d.hub crypto) paidQuery d.sentinel.state).1)) =
      some (true, .paid { contractId := 2, nonce := 5, isOpen := false }) := by
    simp only [attending_run, Option.bind_some, auth, paidQuery_fetched]
    decide +kernel
  have hguard : Runs.Guarded (Deployment.step crypto config) (Guard crypto config)
      { chain := genesis } (attended ++ [.call (.request paidQuery)]) := by
    obtain ⟨d, hd, hnil⟩ := Runs.run_cons.mp notified_run
    have hblock : Runs.Guarded (Deployment.step crypto config) (Guard crypto config)
        { chain := genesis } (attended.take 1) := by
      refine ⟨fun d' hd' => ?_, fun _ _ => trivial⟩
      obtain rfl : notified = d' := (Option.some.inj hnil).symm.trans (Option.some.inj (hd.symm.trans hd'))
      decide +kernel
    have hhandled : Runs.Guarded (Deployment.step crypto config) (Guard crypto config)
        notified (attended.drop 1) := by decide +kernel
    have hquery : Guard crypto config attending (.call (.request paidQuery)) := by
      intro _ hwaived
      rw [paidQuery_waived] at hwaived
      cases hwaived
    exact (hblock.append notified_run hhandled).append attending_run ⟨hquery, fun _ _ => trivial⟩
  obtain ⟨d, hd, h⟩ := Option.bind_eq_some_iff.mp h
  obtain ⟨c, hc, h⟩ := Option.map_eq_some_iff.mp h
  obtain ⟨hcaught, hpaid⟩ := Prod.mk.inj h
  exact ⟨d, c, hd, of_decide_eq_true hcaught, hc, hguard, hpaid⟩

end Sample

/-- The query is on a contract that has not been settled. -/
theorem query_before_settlement : ∃ d c,
    Runs.run (Deployment.step Sample.crypto Sample.config) { chain := Arkeo.Sample.genesis }
      Sample.attended = some d ∧ d.contracts.lookup 2 = some c ∧
    ¬(0 < c.settlementHeight ∧ c.settlementHeight < d.sentinel.state.blockHeight) := by
  obtain ⟨d, c, hd, hcaught, hc, hguard, hpaid⟩ := Sample.attended_run
  exact ⟨d, c, hd, hc, served_before_settlement Arkeo.Sample.genesis_ok hguard hd hcaught hpaid hc⟩

/-- **Service after the settlement.**  The contract was settled in block 3, and the
sentinel, which has handled every notice, serves a request on it at height 4. -/
theorem served_after_settlement : ∃ d c,
    Runs.run (Deployment.step Sample.crypto Sample.config) { chain := Arkeo.Sample.genesis }
      Sample.reminded = some d ∧ d.CaughtUp ∧ d.sentinel.state.blockHeight = 4 ∧
    d.contracts.lookup 2 = some c ∧ c.settlementHeight = 3 ∧
    (auth Sample.crypto Sample.config (d.hub Sample.crypto) Sample.paidQuery d.sentinel.state).1 =
      .paid { contractId := 2, nonce := 5, isOpen := false } := by
  have h : ((Runs.run (Deployment.step Sample.crypto Sample.config)
      { chain := Arkeo.Sample.genesis } Sample.reminded).bind fun d =>
      (d.contracts.lookup 2).map fun c =>
        (decide d.CaughtUp, d.sentinel.state.blockHeight, c.settlementHeight,
          (auth Sample.crypto Sample.config (d.hub Sample.crypto) Sample.paidQuery
            d.sentinel.state).1)) =
      some (true, 4, 3, .paid { contractId := 2, nonce := 5, isOpen := false }) := by
    rw [Sample.reminded, Runs.run_append_of Sample.attending_run]
    simp only [auth, Sample.paidQuery_fetched]
    decide +kernel
  obtain ⟨d, hd, h⟩ := Option.bind_eq_some_iff.mp h
  obtain ⟨c, hc, h⟩ := Option.map_eq_some_iff.mp h
  simp only [Prod.mk.injEq] at h
  obtain ⟨hcaught, hheight, hsettled, hpaid⟩ := h
  exact ⟨d, c, hd, of_decide_eq_true hcaught, hheight, hc, hsettled, hpaid⟩

end Arkeo.Sentinel
