import Arkeo.Reachable

/-! # The writes of the module

Every store the module leaves is put together from a few writes: a record, an expiration set
or a user set under the key made from it, the deletion of one of these, the next id, a
transfer, an event.  `Writes P` says that each of them preserves `P`; then every handler and
the end blocker do (`handle_preserves`, `endBlock_preserves`), whatever they are given and
also where they fail half-way.  The registry of services is written by messages of its own,
which are left out here.
-/
namespace Arkeo
open Exec

/-- The writes preserve a property of the store. -/
structure Writes (P : ChainState → Prop) : Prop where
  contract : ∀ s c, c.provider ≠ "" → c.client ≠ "" → P s →
    P { s with contracts := s.contracts.insert c.id c }
  list : ∀ s (record : ContractExpirationSet), 0 < record.height → record.contractIds ≠ [] → P s →
    P { s with expirationSets := s.expirationSets.insert record.height record }
  unlist : ∀ s t, P s → P { s with expirationSets := s.expirationSets.erase t }
  user : ∀ s set, set.user ≠ "" → set.contractSet.getD [] ≠ [] → P s →
    P { s with userSets := s.userSets.insert (toUpper set.user) set }
  unuser : ∀ s key, P s → P { s with userSets := s.userSets.erase key }
  provider : ∀ s p, p.pubKey ≠ "" → p.bond ≠ 0 → P s →
    P { s with providers := s.providers.insert (toUpper p.pubKey, p.service) p }
  unprovider : ∀ s key, P s → P { s with providers := s.providers.erase key }
  next : ∀ s n, P s → P { s with nextContractId := n }
  bank : ∀ s bank journal, P s → P { s with bank := bank, journal := journal }
  event : ∀ s events, P s → P { s with events := events }

variable {P : ChainState → Prop} (hw : Writes P) (cr : Crypto) (ctx : Context)

include hw

/-! ## The keeper -/

/-- A contract is written only with both parties named. -/
theorem setContract_preserves (c : Contract) : Preserves P (setContract c) := by
  refine Preserves.failIf fun hne => .writing fun s hs => ?_
  simp only [Bool.or_eq_false_iff, decide_eq_false_iff_not] at hne
  exact hw.contract s c hne.1 hne.2 hs

/-- An empty expiration set is deleted instead of written. -/
theorem setContractExpirationSet_preserves (record : ContractExpirationSet) :
    Preserves P (setContractExpirationSet record) := by
  refine Preserves.failIf fun hpos => .writing fun s hs => ?_
  rw [decide_eq_false_iff_not, Int64.not_le] at hpos
  by_cases hids : record.contractIds = []
  · rw [if_pos hids]
    exact hw.unlist s _ hs
  · rw [if_neg hids]
    exact hw.list s record hpos hids hs

theorem removeContractExpirationSet_preserves (height : Int64) :
    Preserves P (removeContractExpirationSet height) :=
  .writing fun s hs => hw.unlist s height hs

/-- An empty user's set is deleted instead of written. -/
theorem setUserContractSet_preserves (set : UserContractSet) :
    Preserves P (setUserContractSet set) := by
  refine Preserves.failIf fun hne => .writing fun s hs => ?_
  rw [decide_eq_false_iff_not] at hne
  by_cases hids : set.contractSet.getD [] = []
  · rw [if_pos hids]
    exact hw.unuser s _ hs
  · rw [if_neg hids]
    exact hw.user s set hne hids hs

/-- What is left of the set is written back, or the set is deleted. -/
theorem removeFromUserContractSet_preserves (user : PubKey) (id : ℕ) :
    Preserves P (removeFromUserContractSet user id) := by
  refine (readOnly_reading _).preserves.bind fun set => ?_
  refine (readOnly_ofOption _ _).preserves.bind fun set => ?_
  split
  · exact .writing fun s hs => hw.unuser s _ hs
  · exact setUserContractSet_preserves hw set

/-- A provider without a bond is deleted instead of written. -/
theorem setProvider_preserves (p : Provider) : Preserves P (setProvider p) := by
  refine Preserves.failIf fun hne => .writing fun s hs => ?_
  rw [decide_eq_false_iff_not] at hne
  by_cases hbond : p.bond = 0
  · rw [if_pos hbond]
    exact hw.unprovider s _ hs
  · rw [if_neg hbond]
    exact hw.provider s p hne hbond hs

theorem removeProvider_preserves (pubKey : PubKey) (service : ℕ) :
    Preserves P (removeProvider pubKey service) :=
  .writing fun s hs => hw.unprovider s _ hs

/-- The counter is read before it is written, and may be written by any number. -/
theorem getAndIncrementNextContractId_preserves : Preserves P getAndIncrementNextContractId := by
  refine (readOnly_reading _).preserves.bind fun id => ?_
  refine (Preserves.writing fun s hs => ?_).bind fun _ => (readOnly_pure _).preserves
  exact hw.next s _ hs

/-- A transfer of nothing leaves no trace, any other one changes the bank and its journal. -/
theorem sent_preserves {s : ChainState} (src dst : Account) (coin : Coin) (p : Purpose) (hs : P s) :
    P (s.sent src dst coin p) := by
  unfold ChainState.sent
  split
  · exact hs
  · exact hw.bank s _ _ hs

/-- A transfer that is not covered fails before it writes. -/
theorem sendCoin_preserves (src dst : Account) (coin : Coin) (p : Purpose) :
    Preserves P (sendCoin src dst coin p) := by
  refine (readOnly_reading _).preserves.bind fun balance => ?_
  exact Preserves.failIf fun _ => .writing fun s hs => sent_preserves hw src dst coin p hs

theorem emit_preserves (e : Event) : Preserves P (emit ctx e) :=
  .writing fun s hs => hw.event s _ hs

omit hw in
/-- The tests of integers and coins read nothing and write nothing. -/
theorem checked_preserves (x : ℤ) : Preserves P (checked x) :=
  ((readOnly_failIf _ _).bind fun _ => readOnly_pure _).preserves

omit hw in
theorem newCoin_preserves (denom : String) (amount : ℤ) : Preserves P (newCoin denom amount) :=
  ((readOnly_failIf _ _).bind fun _ => readOnly_pure _).preserves

omit hw in
theorem toInt64_preserves (x : ℤ) : Preserves P (toInt64 x) :=
  ((readOnly_failIf _ _).bind fun _ => readOnly_pure _).preserves

omit hw in
theorem getContract_preserves (id : ℕ) : Preserves P (getContract id) :=
  (readOnly_reading _).preserves

omit hw in
/-- The registry of services is only read. -/
theorem resolveServiceEnum_preserves (name : String) : Preserves P (resolveServiceEnum name) := by
  refine (readOnly_reading _).preserves.bind fun svc => ?_
  refine (readOnly_ofOption _ _).preserves.bind fun svc => ?_
  exact ((readOnly_failIf _ _).bind fun _ => readOnly_pure _).preserves

/-! ## Settlements -/

omit hw in
/-- A debt is computed, whatever the type of the contract. -/
theorem contractDebt_preserves (c : Contract) : Preserves P (contractDebt ctx c) := by
  have hproduct : Preserves P (c.product ctx) := by
    unfold Contract.product
    cases c.type with
    | subscription =>
      exact (checked_preserves _).bind fun _ => checked_preserves _
    | payAsYouGo => exact checked_preserves _
    | unknown n => exact fun s hs => hs
  refine hproduct.bind fun product => (checked_preserves _).bind fun debt => ?_
  split
  · exact (readOnly_pure _).preserves
  · refine (checked_preserves _).bind fun total => ?_
    split
    · exact checked_preserves _
    · exact (readOnly_pure _).preserves

/-- A debt is paid by two transfers, the second of which may fail after the first. -/
theorem payDebt_preserves (c : Contract) (debt valIncome : ℤ) :
    Preserves P (payDebt cr c debt valIncome) := by
  unfold payDebt
  split
  · exact (readOnly_pure _).preserves
  · refine (readOnly_ofOption _ _).preserves.bind fun provider => ?_
    refine (newCoin_preserves _ _).bind fun income => ?_
    refine (sendCoin_preserves hw _ _ _ _).bind fun _ => ?_
    exact (newCoin_preserves _ _).bind fun tax => sendCoin_preserves hw _ _ _ _

/-- The remainder goes back to the client before the contract leaves the user's set. -/
theorem finalizeContract_preserves (c : Contract) (isFinal : Bool) :
    Preserves P (finalizeContract cr ctx c isFinal) := by
  have hrefund : Preserves P (refundRemainder cr c) := by
    refine (checked_preserves _).bind fun remainder => ?_
    split
    · exact (readOnly_pure _).preserves
    · refine (readOnly_ofOption _ _).preserves.bind fun client => ?_
      refine (newCoin_preserves _ _).bind fun coin => ?_
      exact (sendCoin_preserves hw _ _ _ _).bind fun _ => (readOnly_pure _).preserves
  unfold finalizeContract
  split
  · refine hrefund.bind fun c => ?_
    exact (removeFromUserContractSet_preserves hw _ _).bind fun _ => (readOnly_pure _).preserves
  · exact (readOnly_pure _).preserves

/-- **A settlement**: the transfers, the record and the event. -/
theorem settleContract_preserves (c : Contract) (nonce : Int64) (isFinal : Bool) :
    Preserves P (settleContract cr ctx c nonce isFinal) := by
  refine (contractDebt_preserves ctx _).bind fun debt => ?_
  refine (payDebt_preserves hw cr _ _ _).bind fun _ => ?_
  refine (checked_preserves _).bind fun paid => ?_
  refine (finalizeContract_preserves hw cr ctx _ _).bind fun c => ?_
  refine (setContract_preserves hw c).bind fun _ => ?_
  exact (emit_preserves hw ctx _).bind fun _ => (readOnly_pure _).preserves

/-! ## The end of a block -/

/-- A settlement that fails is logged, and the loop goes on. -/
theorem contractEndBlock_preserves : Preserves P (contractEndBlock cr ctx) := by
  refine (readOnly_reading _).preserves.bind fun set => Preserves.forEach (fun id => ?_) _
  refine (getContract_preserves id).bind fun c => ?_
  split
  · exact (readOnly_pure _).preserves
  · refine Preserves.logged ?_
    refine (settleContract_preserves hw cr ctx c 0 true).bind fun _ => ?_
    exact removeContractExpirationSet_preserves hw _

/-- **The end of a block.**  The invariants it checks afterwards are only read. -/
theorem endBlock_preserves : Preserves P (endBlock cr ctx) := by
  have horPanic : ∀ {x : Keeper Unit}, Preserves P x → Preserves P (orPanic x) := by
    intro x hx s hs
    have h := hx s hs
    unfold orPanic
    cases hr : x s <;> rw [hr] at h <;> exact h
  have hsum : ∀ cs sums, Preserves P (sumContracts ctx cs sums) := by
    intro cs
    induction cs with
    | nil => exact fun sums => (readOnly_pure _).preserves
    | cons c cs ih =>
      intro sums
      unfold sumContracts
      split
      · exact ih sums
      · refine (checked_preserves _).bind fun amount => (newCoin_preserves _ _).bind fun coin => ?_
        exact Preserves.failIf fun _ => ih _
  refine (contractEndBlock_preserves hw cr ctx).logged.bind fun _ => ?_
  refine (horPanic ?_).bind fun _ => (horPanic ?_).bind fun _ => horPanic ?_
  · refine (readOnly_reading _).preserves.bind fun balance => ?_
    exact (readOnly_reading _).preserves.bind fun sum => (readOnly_failIf _ _).preserves
  · refine (readOnly_reading _).preserves.bind fun contracts => (hsum _ _).bind fun sums => ?_
    exact (readOnly_reading _).preserves.bind fun short => (readOnly_failIf _ _).preserves
  · exact (readOnly_reading _).preserves.bind fun supply => (readOnly_failIf _ _).preserves

/-! ## The handlers -/

omit hw in
theorem mustGetSigner_preserves (creator : String) : Preserves P (mustGetSigner cr creator) :=
  (readOnly_ofOption _ _).preserves

omit hw in
theorem getProvider_preserves (pubKey : PubKey) (service : ℕ) :
    Preserves P (getProvider pubKey service) :=
  (readOnly_reading _).preserves

/-- The bond is moved first, then the provider is written or removed. -/
theorem bondProvider_preserves (msg : MsgBondProvider) : Preserves P (bondProvider cr ctx msg) := by
  refine Preserves.failIf fun _ => (resolveServiceEnum_preserves _).bind fun service => ?_
  refine (readOnly_ofOption _ _).preserves.bind fun pubKey => ?_
  refine (getProvider_preserves _ _).bind fun provider => ?_
  refine (readOnly_ofOption _ _).preserves.bind fun addr => (toInt64_preserves _).bind fun amount => ?_
  refine Preserves.bind ?move fun _ => (checked_preserves _).bind fun bond =>
    Preserves.bind ?write fun _ => ?_
  case move =>
    unfold moveBond
    split
    · exact sendCoin_preserves hw _ _ _ _
    · split
      · exact Preserves.failIf fun _ => sendCoin_preserves hw _ _ _ _
      · exact fun s hs => hs
  case write =>
    unfold writeBond
    split
    · exact removeProvider_preserves hw _ _
    · exact setProvider_preserves hw _
  exact (readOnly_ofOption _ _).preserves.bind fun _ => emit_preserves hw ctx _

/-- The settings are checked before the provider is written. -/
theorem modProvider_preserves (msg : MsgModProvider) : Preserves P (modProvider cr ctx msg) := by
  refine Preserves.bind ?validate fun _ => ?_
  case validate =>
    refine Preserves.failIf fun _ => Preserves.failIf fun _ => Preserves.failIf fun _ => ?_
    refine (resolveServiceEnum_preserves _).bind fun service => ?_
    exact (getProvider_preserves _ _).bind fun provider => (readOnly_failIf _ _).preserves
  refine (resolveServiceEnum_preserves _).bind fun service => ?_
  refine (getProvider_preserves _ _).bind fun provider => ?_
  refine (setProvider_preserves hw _).bind fun _ => (mustGetSigner_preserves cr _).bind fun creator => ?_
  exact emit_preserves hw ctx _

omit hw in
/-- The terms of a contract are matched without a write. -/
theorem openContractValidate_preserves (msg : MsgOpenContract) :
    Preserves P (openContractValidate cr ctx msg) := by
  have hrate : ∀ rates rate, Preserves P (matchRate rates rate) := by
    intro rates rate
    refine Preserves.bind ?_ fun amount => Preserves.failIf fun _ => (readOnly_failIf _ _).preserves
    exact (readOnly_ofOption _ _).preserves.bind fun coins => (readOnly_ofOption _ _).preserves
  have hterms : ∀ provider, Preserves P (matchTerms provider msg) := by
    intro provider
    unfold matchTerms
    cases msg.contractType with
    | subscription =>
      refine (hrate _ _).bind fun _ => (toInt64_preserves _).bind fun amount => ?_
      exact (readOnly_failIf _ _).preserves
    | payAsYouGo => exact (hrate _ _).bind fun _ => (readOnly_failIf _ _).preserves
    | unknown n => exact fun s hs => hs
  refine Preserves.failIf fun _ => (resolveServiceEnum_preserves _).bind fun service => ?_
  refine (readOnly_ofOption _ _).preserves.bind fun pubKey => ?_
  refine (getProvider_preserves _ _).bind fun provider => ?_
  refine Preserves.failIf fun _ => Preserves.failIf fun _ => Preserves.failIf fun _ => ?_
  refine Preserves.failIf fun _ => Preserves.failIf fun _ => (hterms provider).bind fun _ => ?_
  refine (readOnly_ofOption _ _).preserves.bind fun spender => ?_
  refine Preserves.bind ?_ fun active => (readOnly_failIf _ _).preserves
  exact (readOnly_reading _).preserves.bind fun set => (readOnly_reading _).preserves

/-- The deposit is taken before the id, the two sets and the contract are written. -/
theorem openContractHandle_preserves (msg : MsgOpenContract) :
    Preserves P (openContractHandle cr ctx msg) := by
  refine (mustGetSigner_preserves cr _).bind fun signer => Preserves.bind ?cost fun _ => ?_
  case cost =>
    unfold payOpenCost
    split
    · exact sendCoin_preserves hw _ _ _ _
    · exact (readOnly_pure _).preserves
  refine (newCoin_preserves _ _).bind fun deposit => (readOnly_reading _).preserves.bind fun next => ?_
  refine (sendCoin_preserves hw _ _ _ _).bind fun _ => ?_
  refine (resolveServiceEnum_preserves _).bind fun service => ?_
  refine (readOnly_ofOption _ _).preserves.bind fun provider => ?_
  refine (readOnly_ofOption _ _).preserves.bind fun client => ?_
  refine (readOnly_ofOption _ _).preserves.bind fun delegate => ?_
  refine (getAndIncrementNextContractId_preserves hw).bind fun id => ?_
  refine (readOnly_reading _).preserves.bind fun expirationSet => ?_
  refine (setContractExpirationSet_preserves hw _).bind fun _ => ?_
  refine (readOnly_reading _).preserves.bind fun userSet => ?_
  refine (setUserContractSet_preserves hw _).bind fun _ => ?_
  exact (setContract_preserves hw _).bind fun _ => emit_preserves hw ctx _

/-- A pay-as-you-go contract is moved to another expiration set before it is settled. -/
theorem closeContract_preserves (msg : MsgCloseContract) :
    Preserves P (closeContract cr ctx msg) := by
  refine Preserves.bind ?validate fun _ => ?_
  case validate =>
    refine Preserves.failIf fun _ => (getContract_preserves _).bind fun contract => ?_
    refine Preserves.failIf fun _ => (readOnly_ofOption _ _).preserves.bind fun client => ?_
    refine (mustGetSigner_preserves cr _).bind fun signer => Preserves.failIf fun _ => ?_
    exact Preserves.failIf fun _ => (readOnly_failIf _ _).preserves
  refine (getContract_preserves _).bind fun contract => Preserves.bind ?relist fun _ => ?_
  case relist =>
    unfold relist
    split
    · refine (removeContractExpirationSet_preserves hw _).bind fun _ => ?_
      refine (readOnly_reading _).preserves.bind fun set => ?_
      exact setContractExpirationSet_preserves hw _
    · exact (readOnly_pure _).preserves
  exact (settleContract_preserves hw cr ctx _ _ _).bind fun _ => emit_preserves hw ctx _

/-- A claim writes what its settlement writes. -/
theorem handlerClaimContractIncome_preserves (msg : MsgClaimContractIncome) :
    Preserves P (handlerClaimContractIncome cr ctx msg) := by
  refine Preserves.failIf fun _ => (getContract_preserves _).bind fun contract => ?_
  refine Preserves.failIf fun _ => Preserves.failIf fun _ => Preserves.bind ?_ fun _ => ?_
  · unfold checkClaimSignature
    split
    · exact (readOnly_pure _).preserves
    · exact (readOnly_ofOption _ _).preserves.bind fun pk => (readOnly_failIf _ _).preserves
  · exact (settleContract_preserves hw cr ctx _ _ _).bind fun _ => (readOnly_pure _).preserves

/-! ## Delivery -/

/-- The message writes the registry of services. -/
def Msg.isRegistry : Msg → Bool
  | .registerService _ | .updateService _ | .removeService _ => true
  | _ => false

/-- **What a message leaves.**  Every message but those of the registry preserves what
the writes preserve. -/
theorem handle_preserves {msg : Msg} (hmsg : msg.isRegistry = false) :
    Preserves P (msg.handle cr ctx) := by
  cases msg with
  | bondProvider msg => exact bondProvider_preserves hw cr ctx msg
  | modProvider msg => exact modProvider_preserves hw cr ctx msg
  | openContract msg =>
    exact (openContractValidate_preserves cr ctx msg).bind fun _ =>
      openContractHandle_preserves hw cr ctx msg
  | closeContract msg => exact closeContract_preserves hw cr ctx msg
  | claimContractIncome msg => exact handlerClaimContractIncome_preserves hw cr ctx msg
  | registerService msg | updateService msg | removeService msg => cases hmsg

variable {cr ctx} {s s' : ChainState}

/-- A message that fails leaves nothing, so one that is delivered was handled. -/
theorem deliver_preserves {msg : Msg} (hmsg : msg.isRegistry = false) (hs : P s)
    (h : deliver cr ctx msg s = some s') : P s' := by
  obtain ⟨-, hh⟩ := deliver_some h
  have hp := handle_preserves hw cr ctx hmsg s hs
  rw [hh] at hp
  exact hp

/-- **One step of the chain**, when a message of the registry preserves the property too. -/
theorem step_preserves {w w' : World} {act : Action} (h : P w.chain)
    (hreg : ∀ (msg : Msg) t, act = .msg msg → msg.isRegistry = true →
      deliver cr w.ctx msg w.chain = some t → P t)
    (hstep : step cr w act = some w') : P w'.chain := by
  cases act with
  | msg m =>
    rw [step] at hstep
    cases hdel : deliver cr w.ctx m w.chain with
    | none =>
      rw [hdel] at hstep
      obtain rfl := Option.some.inj hstep
      exact h
    | some t =>
      rw [hdel] at hstep
      obtain rfl := Option.some.inj hstep
      cases hm : m.isRegistry with
      | false => exact deliver_preserves hw hm h hdel
      | true => exact hreg m t rfl hm hdel
  | send src dst coin =>
    simp only [step] at hstep
    split at hstep
    · obtain rfl := Option.some.inj hstep
      exact sent_preserves hw _ _ _ _ h
    · obtain rfl := Option.some.inj hstep
      exact h
  | endBlock =>
    rw [step] at hstep
    have hend := endBlock_preserves hw cr w.ctx w.chain h
    cases hr : endBlock cr w.ctx w.chain with
    | error e t =>
      rw [hr] at hstep
      cases hstep
    | ok u t =>
      rw [hr] at hstep hend
      obtain ⟨next, -, rfl⟩ := Option.map_eq_some_iff.mp hstep
      exact hend

end Arkeo
