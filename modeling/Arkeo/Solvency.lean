import Arkeo.Reachable

/-! # The contract module is solvent

In every reachable state the contract module holds at least what remains of the
deposits of all stored contracts, denomination by denomination, and exactly that
when no user has sent coins to it.  The check the end blocker makes of it
therefore always passes.
-/
namespace Arkeo
open Exec

variable {cr : Crypto} {ctx : Context} {s : ChainState} {w w' : World} {a : Action}

/-- What the contract module holds beyond what remains of the deposits. -/
def ChainState.surplus (s : ChainState) (d : String) : ℤ :=
  s.balance (.module .contract) d - s.owed d

/-- A transfer of a user to the contract module. -/
def Action.isGift : Action → Prop
  | .send _ (.module .contract) _ => True
  | _ => False

/-- A settlement pays out what it takes from the records. -/
theorem surplus_settle (cr : Crypto) (ctx : Context) {c : Contract}
    (hc : s.contracts.lookup c.id = some c) (nonce : Int64) (isFinal : Bool) (d : String) :
    (s.settle cr ctx (c.raiseNonce nonce) isFinal).surplus d = s.surplus d := by
  unfold ChainState.surplus
  rw [Inv.owed_settle hc, ChainState.settle_balance, Contract.raiseNonce_rate,
    Contract.raiseNonce_remaining]
  split <;> omega

theorem surplus_expireAll (hi : Inv cr ctx s) (ids : List ℕ) (d : String) :
    (s.expireAll cr ctx ids).surplus d = s.surplus d :=
  ChainState.expireAll_induct (P := fun t => t.surplus d = s.surplus d)
    (fun _ _ _ hc _ h => (surplus_settle cr ctx hc 0 true d).trans h) hi rfl ids

/-- Only a gift changes the surplus. -/
theorem Outcome.surplus (ho : Outcome cr w a w') (hi : Inv cr w.ctx w.chain) (hg : ¬a.isGift)
    (d : String) : w'.chain.surplus d = w.chain.surplus d := by
  cases ho with
  | rejected m => rfl
  | unsent src dst coin => rfl
  | provider m s' hdel hm hq hd =>
    unfold ChainState.surplus ChainState.owed
    rw [hq.balance, hq.contracts]
  | opened msg signer service c hsvc hv hc ho =>
    have hnone : w.chain.contracts.lookup c.id = none := by rw [ho.id_eq]; exact hi.lookup_next
    have hrem : c.remaining = c.deposit := by
      unfold Contract.remaining
      rw [ho.paid_eq, Int.sub_zero]
    unfold ChainState.surplus
    rw [ChainState.opened_owed _ _ _ signer hnone, ChainState.opened_balance, hrem]
    omega
  | closed msg c t hd hc hid hopen hby hs ht =>
    have hst := hi.stored _ c hc
    have hc' := ChainState.relisted_lookup w.ctx hc
    have hsur := surplus_settle cr w.ctx hc' 0 c.isSubscription d
    rw [hst.wf.raiseNonce_zero, ← ht] at hsur
    have hrel : (w.chain.relisted w.ctx c).surplus d = w.chain.surplus d := by
      unfold ChainState.relisted
      split <;> rfl
    exact hsur.trans hrel
  | claimed msg c hc hid hn hset hf => exact surplus_settle cr w.ctx hc msg.nonce false d
  | sent src dst coin h0 hle =>
    have hdst : dst ≠ .module .contract := by
      rintro rfl
      exact hg trivial
    unfold ChainState.surplus ChainState.owed
    rw [ChainState.sent_contracts, ChainState.sent_balance, if_neg (by simp),
      if_neg (fun h => hdst h.1.symm)]
    omega
  | ended ctx' hctx => exact surplus_expireAll hi _ d

/-- The surplus of a run without gifts stays what it was. -/
theorem run_surplus (hg : Genesis w) {actions : List Action}
    (h : Runs.run (step cr) w actions = some w') (hn : ∀ a ∈ actions, ¬a.isGift) (d : String) :
    w'.chain.surplus d = w.chain.surplus d := by
  have hi : Inv cr w.ctx w.chain := hg.inv
  clear hg
  induction actions generalizing w with
  | nil =>
    obtain rfl := Option.some.inj h
    rfl
  | cons a actions ih =>
    obtain ⟨t, ht, hl⟩ := Runs.run_cons.mp h
    have ho := step_outcome hi ht
    obtain ⟨ha, hn⟩ := List.forall_mem_cons.mp hn
    exact (ih hl hn (ho.inv hi)).trans (ho.surplus hi ha d)

/-- **The contract module is solvent.**  In every reachable state each contract
has been paid at most its deposit, the module holds what remains of all deposits
(exactly that, if it was empty at the start and got no gifts), and the end
blocker settles what is listed and finds the module in order. -/
theorem contract_module_solvent (hg : Genesis w) {actions : List Action}
    (h : Runs.run (step cr) w actions = some w') :
    (∀ k c, w'.chain.contracts.lookup k = some c → 0 ≤ c.paid ∧ c.paid ≤ c.deposit) ∧
    (∀ d, w'.chain.owed d ≤ w'.chain.balance (.module .contract) d) ∧
    ((∀ d, w.chain.balance (.module .contract) d = 0) → (∀ a ∈ actions, ¬a.isGift) →
      ∀ d, w'.chain.balance (.module .contract) d = w'.chain.owed d) ∧
    ∃ s, contractEndBlock cr w'.ctx w'.chain = .ok () s ∧
      invariantContractModule w'.ctx s = .ok () s := by
  have hi := reachable_inv hg h
  refine ⟨?_, hi.solvent, ?_, ?_⟩
  · intro k c hc
    have hw := (hi.stored k c hc).wf
    exact ⟨hw.paid_nonneg, hw.paid_le⟩
  · intro hzero hn d
    have hs := run_surplus hg h hn d
    unfold ChainState.surplus ChainState.owed at hs
    rw [hg.contracts, AList.sumOver_empty, hzero] at hs
    unfold ChainState.owed
    omega
  · exact ⟨_, contractEndBlock_eq hi, invariantContractModule_ok (hi.expireAll _)⟩

/-- The module holds what remains of the deposits in the last block of the sample
run, and nothing else. -/
theorem contract_module_solvent_at_lifetimes : ∃ w,
    Runs.run (step Sample.crypto) Sample.genesis Sample.lifetimes = some w ∧
    ∀ d, w.chain.balance (.module .contract) d = w.chain.owed d := by
  obtain ⟨w, w', c, hw, -⟩ := Sample.lifetimes_run
  refine ⟨w, hw, (contract_module_solvent Sample.genesis_ok hw).2.2.1 ?_ ?_⟩
  · intro d
    change Ledger.bal Sample.bank (.module .contract) d = 0
    rw [Sample.bank, Ledger.bal_credit, Ledger.bal_credit]
    rfl
  · intro a ha
    simp only [Sample.lifetimes, Sample.setup, List.cons_append, List.nil_append, List.mem_cons,
      List.not_mem_nil, or_false] at ha
    rcases ha with rfl | rfl | rfl | rfl | rfl | rfl | rfl <;> exact id

/-! ## Settlement in the end blocker

The end blocker works on the store itself: what a settlement does before it fails
stays.  It fails for contracts that are settled already, and these it does not
touch. -/

/-- **All or nothing.**  A final settlement that fails in the loop of the end blocker, whatever
ids the loop has come through before it, leaves the store as it was before the call: every
balance, every record and every user's set. -/
theorem failed_settlement_changes_nothing (hg : Genesis w) {actions : List Action}
    (h : Runs.run (step cr) w actions = some w') {before : List ℕ} {k : ℕ}
    (hloop : forEach (settleExpired cr w'.ctx) before w'.chain = .ok () s) {c : Contract}
    (hc : getContract k s = .ok c s) (hclient : c.client ≠ "") {e : Fault Err} {s' : ChainState}
    (he : settleContract cr w'.ctx c 0 true s = .error e s') : s' = s := by
  have hi := reachable_inv hg h
  -- the state of the loop when it comes to the id
  have hs : s = w'.chain.expireAll cr w'.ctx before := by
    rw [forEach_settleExpired hi before] at hloop
    cases hloop
    rfl
  have hi' : Inv cr w'.ctx s := by
    rw [hs]
    exact hi.expireAll before
  obtain ⟨hget, -⟩ := getContract_ok.mp hc
  cases hl : s.contracts.lookup k with
  | none =>
    rw [hl] at hget
    subst hget
    exact absurd rfl hclient
  | some d =>
    rw [hl] at hget
    obtain rfl : d = c := hget
    have hd : s.contracts.lookup d.id = some d := by
      rw [(hi'.stored k d hl).id_eq]
      exact hl
    by_cases h0 : d.settlementHeight = 0
    · rw [hi'.settleContract_of_unsettled hd h0] at he
      cases he
    · rw [hi'.settleContract_of_settled hd h0] at he
      cases he
      rfl

/-- The client opens a subscription and closes it in the same block. -/
def Sample.closed : List Action :=
  setup ++
    [.msg (.openContract (openMsg .subscription 10)),
     .msg (.closeContract
      { creator := client.account, contractId := 1, client := some client.pubKey
        delegate := none }),
     .endBlock]

/-- The closed subscription is still listed for its expiration, and its second
settlement fails. -/
theorem second_settlement_changes_nothing : ∃ w c e s,
    Runs.run (step Sample.crypto) Sample.genesis Sample.closed = some w ∧
    w.chain.listedAt w.ctx.blockHeight = [1] ∧ getContract 1 w.chain = .ok c w.chain ∧
    settleContract Sample.crypto w.ctx c 0 true w.chain = .error e s ∧ s = w.chain := by
  have hrun : ((Runs.run (step Sample.crypto) Sample.genesis Sample.closed).bind fun w =>
      (w.chain.contracts.lookup 1).map fun c =>
        (w.chain.listedAt w.ctx.blockHeight, decide (c.client ≠ ""),
          match settleContract Sample.crypto w.ctx c 0 true w.chain with
          | .error _ _ => true
          | .ok _ _ => false)) = some ([1], true, true) := by
    rw [Sample.closed, Runs.run_append_of Sample.setup_run]
    decide +kernel
  obtain ⟨w, hw, hrun⟩ := Option.bind_eq_some_iff.mp hrun
  obtain ⟨c, hc, hrun⟩ := Option.map_eq_some_iff.mp hrun
  simp only [Prod.mk.injEq, decide_eq_true_eq] at hrun
  obtain ⟨hids, hclient, herr⟩ := hrun
  have hget : getContract 1 w.chain = .ok c w.chain :=
    getContract_ok.mpr ⟨by rw [hc]; rfl, rfl⟩
  cases hset : settleContract Sample.crypto w.ctx c 0 true w.chain with
  | ok c' s =>
    rw [hset] at herr
    cases herr
  | error e s =>
    exact ⟨w, c, e, s, hw, hids, hget, hset, failed_settlement_changes_nothing
      Sample.genesis_ok hw (forEach_nil_ok.mpr rfl) hget hclient hset⟩

end Arkeo
