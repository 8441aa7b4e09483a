import Arkeo.EndBlock
import Arkeo.World

/-! # What a step of the chain can do

`step_outcome` says once what a step does: a rejected message or transfer changes
nothing, and each accepted message, each transfer and each end of a block changes
the store in a known way (`Outcome`).  Every invariant of the chain is proved by
cases on it; the first one is `Inv` (`reachable_inv`).
-/
namespace Arkeo
open Exec

variable {cr : Crypto} {ctx : Context} {s s' : ChainState} {w w' : World} {a : Action} {u : Unit}

/-! ## Accepted messages -/

theorem MsgBondProvider.validateBasic_ok {msg : MsgBondProvider}
    (h : msg.validateBasic cr s = .ok u s') : s = s' := by
  unfold validateBasic at h
  rw [ofOption_bind_ok] at h
  obtain ⟨_, -, h⟩ := h
  obtain ⟨_, _, hs, h⟩ := bind_ok.mp h
  obtain ⟨-, rfl⟩ := mustGetSigner_ok.mp hs
  rw [ofOption_bind_ok] at h
  obtain ⟨_, -, h⟩ := h
  simp only [failIf_bind_ok, failIf_ok] at h
  exact h.2.2.2

theorem validateRates_ok {rates : List Coin} (h : validateRates rates s = .ok u s') : s = s' := by
  unfold validateRates at h
  rw [ofOption_bind_ok] at h
  obtain ⟨_, -, h⟩ := h
  exact (failIf_ok.mp h).2

theorem MsgModProvider.validateBasic_ok {msg : MsgModProvider}
    (h : msg.validateBasic cr s = .ok u s') : s = s' := by
  unfold validateBasic at h
  rw [ofOption_bind_ok] at h
  obtain ⟨_, -, h⟩ := h
  rw [failIf_bind_ok] at h
  obtain ⟨_, _, hs, h⟩ := bind_ok.mp h.2
  obtain ⟨-, rfl⟩ := mustGetSigner_ok.mp hs
  rw [ofOption_bind_ok] at h
  obtain ⟨_, -, h⟩ := h
  simp only [failIf_bind_ok] at h
  obtain ⟨-, -, -, -, -, h⟩ := h
  obtain ⟨_, _, hr, h⟩ := bind_ok.mp h
  obtain rfl := validateRates_ok hr
  exact validateRates_ok h

theorem MsgCloseContract.validateBasic_ok {msg : MsgCloseContract}
    (h : msg.validateBasic cr s = .ok u s') : s = s' := by
  unfold validateBasic at h
  simp only [failIf_bind_ok, ofOption_bind_ok] at h
  obtain ⟨-, -, _, -, _, -, h⟩ := h
  obtain ⟨_, _, hs, h⟩ := bind_ok.mp h
  obtain ⟨-, rfl⟩ := mustGetSigner_ok.mp hs
  rw [ofOption_bind_ok] at h
  obtain ⟨_, -, h⟩ := h
  exact (failIf_ok.mp h).2

theorem MsgClaimContractIncome.validateBasic_ok {msg : MsgClaimContractIncome}
    (h : msg.validateBasic s = .ok u s') : s = s' ∧ 0 < msg.nonce.toInt := by
  unfold validateBasic at h
  rw [failIf_bind_ok, failIf_ok] at h
  obtain ⟨-, hn, rfl⟩ := h
  rw [decide_eq_false_iff_not, Int64.le_iff_toInt_le, Int64.toInt_zero, not_le] at hn
  exact ⟨rfl, hn⟩

/-- `ValidateBasic` only reads. -/
theorem Msg.validateBasic_ok {m : Msg} (h : m.validateBasic cr s = .ok u s') : s = s' := by
  cases m with
  | bondProvider msg => exact MsgBondProvider.validateBasic_ok h
  | modProvider msg => exact MsgModProvider.validateBasic_ok h
  | openContract msg => exact (MsgOpenContract.validateBasic_ok h).1
  | closeContract msg => exact MsgCloseContract.validateBasic_ok h
  | claimContractIncome msg => exact (MsgClaimContractIncome.validateBasic_ok h).1
  | registerService msg => exact (validateService_ok.mp h).2
  | updateService msg => exact (validateService_ok.mp h).2
  | removeService msg => exact (MsgRemoveService.validateBasic_ok.mp h).2

theorem deliver_some {m : Msg} (h : deliver cr ctx m s = some s') :
    m.validateBasic cr s = .ok () s ∧ m.handle cr ctx s = .ok () s' := by
  obtain ⟨_, h⟩ := committed_some.mp h
  obtain ⟨_, _, hv, h⟩ := bind_ok.mp h
  obtain rfl := Msg.validateBasic_ok hv
  exact ⟨hv, h⟩

/-- Only the end of a block can fail. -/
theorem step_eq_none (h : step cr w a = none) : a = .endBlock := by
  cases a with
  | msg m =>
    simp only [step] at h
    split at h <;> cases h
  | send src dst coin =>
    simp only [step] at h
    split at h <;> cases h
  | endBlock => rfl

/-- A message that is among the accepted ones was accepted. -/
theorem deliver_isSome {m : Msg} (hstep : step cr w (.msg m) = some w')
    (hacc : w'.accepted = w.accepted ++ [m]) : (deliver cr w.ctx m w.chain).isSome := by
  rw [step] at hstep
  cases hd : deliver cr w.ctx m w.chain with
  | some s => rfl
  | none =>
    rw [hd] at hstep
    obtain rfl := Option.some.inj hstep
    have hlen := congrArg List.length hacc
    rw [List.length_append, List.length_singleton] at hlen
    omega

/-! ## The outcome of a step -/

/-- A message about a provider or a service, not about a contract. -/
def Msg.isQuiet : Msg → Bool
  | .openContract _ | .closeContract _ | .claimContractIncome _ => false
  | _ => true

/-- Everything a step can do. -/
inductive Outcome (cr : Crypto) (w : World) : Action → World → Prop
  | rejected (m : Msg) : Outcome cr w (.msg m) w
  | unsent (src : Bytes) (dst : Account) (coin : Coin) : Outcome cr w (.send src dst coin) w
  /-- A bond or new settings of a provider, or a change of the registry. -/
  | provider (m : Msg) (s' : ChainState) (hdel : deliver cr w.ctx m w.chain = some s')
      (hm : m.isQuiet = true)
      (hq : Quiet w.chain s') (hd : s'.Durations) :
      Outcome cr w (.msg m) { w with chain := s', accepted := w.accepted ++ [m] }
  | opened (msg : MsgOpenContract) (signer : Bytes) (service : ℕ) (c : Contract)
      (hsvc : w.chain.serviceId? msg.service = some service)
      (hv : msg.contractType ≠ .payAsYouGo →
        w.chain.Vacant w.ctx msg.spender msg.provider service)
      (hc : c = newContract w.ctx msg service w.chain.getNextContractId msg.provider msg.client
        msg.spender) (ho : Opening cr w.ctx w.chain signer c) :
      Outcome cr w (.msg (.openContract msg))
        { w with
          chain := w.chain.opened w.ctx signer c
          accepted := w.accepted ++ [.openContract msg] }
  | closed (msg : MsgCloseContract) (c : Contract) (t : ChainState)
      (hd : (deliver cr w.ctx (.closeContract msg) w.chain).isSome)
      (hc : w.chain.contracts.lookup c.id = some c) (hid : c.id = msg.contractId)
      (hopen : c.isOpen w.ctx.blockHeight = true) (hby : c.ClosedBy cr msg)
      (hs : c.isSubscription = true → c.settlementHeight = 0)
      (ht : t = (w.chain.relisted w.ctx c).settle cr w.ctx c c.isSubscription) :
      Outcome cr w (.msg (.closeContract msg))
        { w with
          chain := { t with events := t.events ++ [(w.ctx.blockHeight, closeEvent c)] }
          accepted := w.accepted ++ [.closeContract msg] }
  | claimed (msg : MsgClaimContractIncome) (c : Contract)
      (hc : w.chain.contracts.lookup c.id = some c) (hid : c.id = msg.contractId)
      (hn : c.nonce < msg.nonce) (hset : c.isSettled w.ctx.blockHeight = false)
      (hf : (c.raiseNonce msg.nonce).DueFits w.ctx) :
      Outcome cr w (.msg (.claimContractIncome msg))
        { w with
          chain := w.chain.settle cr w.ctx (c.raiseNonce msg.nonce) false
          accepted := w.accepted ++ [.claimContractIncome msg] }
  | sent (src : Bytes) (dst : Account) (coin : Coin) (h0 : 0 < coin.amount)
      (hle : coin.amount ≤ w.chain.balance (.user src) coin.denom) :
      Outcome cr w (.send src dst coin)
        { w with chain := w.chain.sent (.user src) dst coin .other }
  | ended (ctx' : Context) (hctx : w.ctx.next = some ctx') :
      Outcome cr w .endBlock
        { w with
          ctx := ctx'
          chain := w.chain.expireAll cr w.ctx (w.chain.listedAt w.ctx.blockHeight) }

/-- **A step, inverted.** -/
theorem step_outcome (hi : Inv cr w.ctx w.chain) (h : step cr w a = some w') :
    Outcome cr w a w' := by
  cases a with
  | msg m =>
    simp only [step] at h
    cases hd : deliver cr w.ctx m w.chain with
    | none =>
      rw [hd] at h
      obtain rfl := Option.some.inj h
      exact .rejected m
    | some s' =>
      rw [hd] at h
      obtain rfl := Option.some.inj h
      obtain ⟨hv, hh⟩ := deliver_some hd
      cases m with
      | bondProvider msg =>
        obtain ⟨hq, hdur⟩ := bondProvider_ok hi hh
        exact .provider _ s' hd rfl hq hdur
      | modProvider msg =>
        obtain ⟨hq, hdur⟩ := modProvider_ok hi hh
        exact .provider _ s' hd rfl hq hdur
      | registerService msg =>
        obtain ⟨-, -, rfl⟩ := registerService_ok hh
        exact .provider _ _ hd rfl (Quiet.withService _ _ _ rfl) hi.durations
      | updateService msg =>
        obtain ⟨_, -, -, rfl⟩ := updateService_ok hh
        exact .provider _ _ hd rfl (Quiet.withService _ _ _ rfl) hi.durations
      | removeService msg =>
        obtain ⟨_, -, rfl⟩ := removeService_ok hh
        exact .provider _ _ hd rfl (Quiet.withoutService _ _ _ _) hi.durations
      | openContract msg =>
        obtain ⟨signer, service, c, hsvc, hvac, hc, ho, rfl⟩ := openContract_ok hi hv hh
        exact .opened msg signer service c hsvc hvac hc ho
      | closeContract msg =>
        obtain ⟨c, t, hc, hid, hopen, hby, hs, -, ht, rfl⟩ := closeContract_ok hi hh
        exact .closed msg c t (by rw [hd]; rfl) (hid ▸ hc) hid hopen hby hs ht
      | claimContractIncome msg =>
        obtain ⟨c, hc, hid, hn, hset, hf, rfl⟩ := claimContractIncome_ok hi hh
        exact .claimed msg c (hid ▸ hc) hid hn hset hf
  | send src dst coin =>
    simp only [step] at h
    split at h
    · rename_i hcoin
      obtain rfl := Option.some.inj h
      exact .sent src dst coin hcoin.1 hcoin.2
    · obtain rfl := Option.some.inj h
      exact .unsent src dst coin
  | endBlock =>
    simp only [step] at h
    cases he : endBlock cr w.ctx w.chain with
    | error e t =>
      rw [he] at h
      cases h
    | ok u t =>
      rw [he] at h
      obtain ⟨ctx', hctx, rfl⟩ := Option.map_eq_some_iff.mp h
      rw [endBlock_ok hi he]
      exact .ended ctx' hctx

theorem Context.next_height {ctx ctx' : Context} (h : ctx.next = some ctx') :
    ctx'.blockHeight.toInt = ctx.blockHeight.toInt + 1 := by
  unfold next at h
  split at h
  · rename_i hfit
    obtain rfl := Option.some.inj h
    have hmax := maxContractLength_toInt
    have hpos := ctx.pos
    exact toInt_add_of_fits (by simp; omega) (by simp; omega)
  · cases h

/-! ## The invariant of every reachable store -/

theorem Inv.sent (hi : Inv cr ctx s) (src : Bytes) (dst : Account) {coin : Coin} {p : Purpose}
    (h0 : 0 ≤ coin.amount) (hle : coin.amount ≤ s.balance (.user src) coin.denom) :
    Inv cr ctx (s.sent (.user src) dst coin p) := by
  refine hi.quiet (s.sent_contracts ..) ?_ (s.sent_userSets ..) (s.sent_nextContractId ..)
    (s.sent_nonneg _ _ _ _ hi.nonneg h0 hle) (s.sent_supply _ _ _ _) ?_ ?_
  · intro t set h
    rw [ChainState.sent_expirationSets] at h
    exact hi.setHeights t set h
  · intro d
    rw [ChainState.sent_balance]
    simp only [reduceCtorEq, false_and, if_false]
    split <;> omega
  · intro key p h
    rw [ChainState.sent_providers] at h
    exact hi.durations key p h

theorem Outcome.inv (ho : Outcome cr w a w') (hi : Inv cr w.ctx w.chain) :
    Inv cr w'.ctx w'.chain := by
  cases ho with
  | rejected m => exact hi
  | unsent src dst coin => exact hi
  | provider m s' hdel hm hq hd => exact hq.inv hd hi
  | opened msg signer service c hsvc hv hc ho => exact hi.opened ho
  | closed msg c t hd hc hid hopen hby hs ht =>
    have hst := hi.stored _ c hc
    have hc' := ChainState.relisted_lookup w.ctx hc
    have hset := (hi.relisted c).settle hc' 0 (by rw [hst.wf.raiseNonce_zero]; exact hst.dueFits)
      c.isSubscription
    rw [hst.wf.raiseNonce_zero, ← ht] at hset
    exact { hset with }
  | claimed msg c hc hid hn hset hf => exact hi.settle hc msg.nonce hf false
  | sent src dst coin h0 hle => exact hi.sent src dst h0.le hle
  | ended ctx' hctx =>
    have hh := Context.next_height hctx
    exact (hi.expireAll _).next (by simp only; omega)

theorem Genesis.inv (hg : Genesis w) : Inv cr w.ctx w.chain where
  setHeights t set h := by rw [hg.expirationSets] at h; cases h
  setUsers key set h := by rw [hg.userSets] at h; cases h
  stored k c h := by rw [hg.contracts] at h; cases h
  indexed k c h := by rw [hg.contracts] at h; cases h
  owned key k h := by
    rw [ChainState.userIds, hg.userSets] at h
    cases h
  nodup key := by
    rw [ChainState.userIds, hg.userSets]
    exact List.nodup_nil
  nonneg := hg.nonneg
  supply := hg.supply
  solvent d := by
    rw [ChainState.owed, hg.contracts, AList.sumOver_empty]
    exact hg.nonneg _ _
  durations key p h := by rw [hg.providers] at h; cases h

/-- **Every reachable store satisfies the invariant.** -/
theorem reachable_inv (hg : Genesis w) {actions : List Action}
    (h : Runs.run (step cr) w actions = some w') : Inv cr w'.ctx w'.chain :=
  Runs.run_induct (P := fun w => Inv cr w.ctx w.chain)
    (fun _ _ _ hi hstep => (step_outcome hi hstep).inv hi) hg.inv h

end Arkeo
