import Arkeo.BondSolvency
import Arkeo.UserIndex
import Arkeo.Writes

/-! # Only signers pay

The chain takes coins from an account in three places: the cost and the deposit of a contract
that is opened, a bond that is paid in, and a transfer.  `step_spares` goes over everything that
a step can do and finds that in each the account is that of the signer, and that no more is
taken than the message names.  What is left to an account after a run is therefore what it had,
less what it signed for (`only_signers_pay`); and only the contract module and the provider
module, which hold what was deposited, pay without a signature.
-/
namespace Arkeo
open Exec

variable {cr : Crypto} {ctx : Context} {s s' : ChainState} {w w' : World} {a : Action} {u : Unit}
  {acc : Account} {c : Contract} {d : String}

/-! ## Who signs for what -/

/-- The account whose signature an action carries, where it is one that takes coins. -/
def Action.payer (cr : Crypto) : Action → Option Bytes
  | .msg (.openContract m) => cr.accAddressFromBech32 m.creator
  | .msg (.bondProvider m) => cr.accAddressFromBech32 m.creator
  | .send src _ _ => some src
  | _ => none

/-- The coins that an action names, of a denomination. -/
def Action.price (d : String) : Action → ℤ
  | .msg (.openContract m) =>
      (if d = denom then (fetchConfig .openContractCost).toInt else 0) +
        if d = m.rate.denom then max m.deposit 0 else 0
  | .msg (.bondProvider m) => if d = denom then max m.bond 0 else 0
  | .send _ _ coin => if d = coin.denom then max coin.amount 0 else 0
  | _ => 0

/-- What an action may take from an account. -/
def Action.taken (cr : Crypto) (acc : Account) (d : String) (a : Action) : ℤ :=
  if (a.payer cr).map Account.user = some acc then a.price d else 0

theorem Action.price_nonneg (d : String) (a : Action) : 0 ≤ a.price d := by
  have hcost : 0 ≤ (fetchConfig .openContractCost).toInt := by decide
  unfold price
  split
  · split <;> split <;> omega
  · split <;> omega
  · split <;> omega
  · exact le_rfl

theorem Action.taken_nonneg (cr : Crypto) (acc : Account) (d : String) (a : Action) :
    0 ≤ a.taken cr acc d := by
  unfold taken
  split
  · exact a.price_nonneg d
  · exact le_rfl

/-- A module signs nothing. -/
theorem Action.taken_module (cr : Crypto) (m : ModuleName) (d : String) (a : Action) :
    a.taken cr (.module m) d = 0 := by
  unfold taken
  rw [if_neg]
  cases a.payer cr <;> simp

/-! ## Changes that take nothing from an account -/

/-- An account holds no less than before, of any denomination. -/
def Spares (acc : Account) (s s' : ChainState) : Prop := ∀ d, s.balance acc d ≤ s'.balance acc d

namespace Spares

theorem refl (s : ChainState) : Spares acc s s := fun _ => le_rfl

theorem trans {t : ChainState} (h : Spares acc s t) (h' : Spares acc t s') : Spares acc s s' :=
  fun d => (h d).trans (h' d)

theorem of_bank (h : s'.bank = s.bank) : Spares acc s s' := by
  intro d
  rw [ChainState.balance, ChainState.balance, h]

theorem sent {src dst : Account} {coin : Coin} {p : Purpose} (hsrc : acc ≠ src)
    (hdst : acc ≠ dst ∨ 0 ≤ coin.amount) : Spares acc s (s.sent src dst coin p) := by
  intro d
  rw [ChainState.sent_balance, if_neg fun h => hsrc h.1]
  rcases hdst with hdst | h0
  · rw [if_neg fun h => hdst h.1]
    omega
  · split <;> omega

theorem settle (hacc : acc ≠ .module .contract) (hle : c.paid ≤ c.deposit) (isFinal : Bool) :
    Spares acc s (s.settle cr ctx c isFinal) := by
  have hdebt := Contract.debt_nonneg ctx hle
  obtain ⟨htax, hshare⟩ := reserveShare_bounds hdebt
  have hincome : 0 ≤ c.debt ctx - reserveShare (c.debt ctx) := by omega
  have hrefund : 0 ≤ if isFinal then c.remaining - c.debt ctx else 0 := by
    have := Contract.debt_le ctx hle
    split <;> omega
  have hpay : ∀ income tax refund, 0 ≤ income → 0 ≤ tax → 0 ≤ refund →
      Spares acc s (s.payout cr c income tax refund) := by
    intro income tax refund h₁ h₂ h₃
    unfold ChainState.payout
    exact ((sent hacc (.inr h₁)).trans (sent hacc (.inr h₂))).trans (sent hacc (.inr h₃))
  exact (hpay _ _ _ hincome htax hrefund).trans (of_bank (ChainState.settle_bank ..))

theorem relisted (ctx : Context) (c : Contract) : Spares acc s (s.relisted ctx c) := by
  unfold ChainState.relisted
  split
  · exact of_bank rfl
  · exact refl s

theorem expireAll (hacc : acc ≠ .module .contract) (hi : Inv cr ctx s) (ids : List ℕ) :
    Spares acc s (s.expireAll cr ctx ids) := by
  refine ChainState.expireAll_induct (P := Spares acc s) ?_ hi (refl s) ids
  intro t c hi hc _ h
  have hle := (hi.stored _ c hc).wf.paid_le
  exact h.trans ((settle (c := c.raiseNonce 0) hacc hle true).trans (of_bank rfl))

end Spares

/-! ## The signer of an opening -/

/-- An opening takes nothing from an account that is not the signer's. -/
theorem openContractHandle_spares (ctx : Context) {msg : MsgOpenContract} {signer : Bytes}
    (hsigner : cr.accAddressFromBech32 msg.creator = some signer) (hacc : acc ≠ .user signer)
    (hc : acc ≠ .module .contract) :
    Preserves (Spares acc s) (openContractHandle cr ctx msg) := by
  have hbank : ∀ {t t' : ChainState}, t'.bank = t.bank → Spares acc s t → Spares acc s t' :=
    fun h ht => ht.trans (.of_bank h)
  have hsend : ∀ (dst : ModuleName) (coin : Coin) (p : Purpose),
      acc ≠ .module dst ∨ 0 ≤ coin.amount →
      Preserves (Spares acc s) (sendFromAccountToModule signer dst coin p) := by
    intro dst coin p hdst
    refine (readOnly_reading _).preserves.bind fun balance => ?_
    exact Preserves.failIf fun _ => .writing fun t ht => ht.trans (.sent hacc hdst)
  have hmust : mustGetSigner cr msg.creator = pure signer := by
    unfold mustGetSigner
    rw [hsigner]
    rfl
  unfold openContractHandle
  simp only [hmust, pure_bind]
  refine Preserves.bind ?cost fun _ => ?_
  case cost =>
    unfold payOpenCost
    split
    · exact hsend _ _ _ (.inr (by decide))
    · exact (readOnly_pure _).preserves
  refine (newCoin_preserves _ _).bind fun deposit => (readOnly_reading _).preserves.bind fun next => ?_
  refine (hsend _ _ _ (.inl hc)).bind fun _ => ?_
  refine (resolveServiceEnum_preserves _).bind fun service => ?_
  refine (readOnly_ofOption _ _).preserves.bind fun provider => ?_
  refine (readOnly_ofOption _ _).preserves.bind fun client => ?_
  refine (readOnly_ofOption _ _).preserves.bind fun delegate => ?_
  -- what is left writes records, and no balance
  refine Preserves.bind ?next fun id => ?_
  case next =>
    refine (readOnly_reading _).preserves.bind fun id => ?_
    refine (Preserves.writing fun t ht => ?_).bind fun _ => (readOnly_pure _).preserves
    exact hbank rfl ht
  refine (readOnly_reading _).preserves.bind fun expirationSet => Preserves.bind ?list fun _ => ?_
  case list =>
    refine Preserves.failIf fun _ => .writing fun t ht => ?_
    exact hbank rfl ht
  refine (readOnly_reading _).preserves.bind fun userSet => Preserves.bind ?user fun _ => ?_
  case user =>
    refine Preserves.failIf fun _ => .writing fun t ht => ?_
    exact hbank rfl ht
  refine Preserves.bind ?contract fun _ => ?_
  case contract =>
    refine Preserves.failIf fun _ => .writing fun t ht => ?_
    exact hbank rfl ht
  refine Preserves.writing fun t ht => ?_
  exact hbank rfl ht

/-- **The signer of an opening.**  An accepted message is signed, and nobody else pays. -/
theorem openContract_signer {msg : MsgOpenContract} (hi : Inv cr ctx s)
    (h : openContract cr ctx msg s = .ok u s') : ∃ signer,
      cr.accAddressFromBech32 msg.creator = some signer ∧
        ∀ acc, acc ≠ .user signer → acc ≠ .module .contract → Spares acc s s' := by
  obtain ⟨_, _, hval, h⟩ := bind_ok.mp h
  obtain ⟨rfl, -⟩ := openContractValidate_ok hi hval
  have hhandle := h
  obtain ⟨signer, _, hs, -⟩ := bind_ok.mp h
  obtain ⟨hsigner, -⟩ := mustGetSigner_ok.mp hs
  refine ⟨signer, hsigner, fun acc hacc hc => ?_⟩
  have hp := openContractHandle_spares (s := s) ctx hsigner hacc hc s (.refl s)
  rw [hhandle] at hp
  exact hp

/-! ## One step -/

/-- What an opening takes from an account that is not the contract module. -/
theorem ChainState.opened_spares (ctx : Context) (acc : Account) (signer : Bytes)
    (h0 : 0 ≤ c.deposit) (d : String) : s.balance acc d -
      (if acc = .user signer then
        (if d = denom then (fetchConfig .openContractCost).toInt else 0) +
          if d = c.rate.denom then c.deposit else 0 else 0) ≤
      (s.opened ctx signer c).balance acc d := by
  have hcost : 0 ≤ (fetchConfig .openContractCost).toInt := by decide
  rw [balance, balance, opened_bank, charged, ← balance, ← balance, sent_balance, sent_balance]
  by_cases hsigner : acc = .user signer
  · rw [if_pos hsigner, hsigner]
    simp only [true_and, reduceCtorEq, false_and, if_false]
    omega
  · simp only [hsigner, false_and, if_false]
    split <;> split <;> omega

/-- What a bond takes from an account that is not the provider module. -/
theorem ChainState.bonded_spares (s : ChainState) (ctx : Context) (hacc : acc ≠ .module .provider)
    (msg : MsgBondProvider) (service : ℕ) (addr : Bytes) (d : String) :
    s.balance acc d - (if acc = .user addr then if d = denom then max msg.bond 0 else 0 else 0) ≤
      (s.bonded ctx msg service addr).balance acc d := by
  change _ ≤ (s.sent (msg.posting addr).src (msg.posting addr).dst msg.coin .bond).balance acc d
  rw [sent_balance]
  unfold MsgBondProvider.posting MsgBondProvider.coin
  by_cases hpos : 0 < msg.bond
  · by_cases haddr : acc = .user addr
    · simp only [if_pos hpos, haddr, true_and, reduceCtorEq, false_and, if_false, if_true]
      split <;> omega
    · simp only [if_pos hpos, haddr, false_and, if_false]
      split <;> omega
  · simp only [if_neg hpos, hacc, false_and, if_false]
    split <;> split <;> (try split) <;> omega

/-- **One step takes from an account what it signs for.** -/
theorem step_spares (hi : Inv cr w.ctx w.chain) (hb : Bonded cr w) (h : step cr w a = some w')
    (hc : acc ≠ .module .contract) (hp : acc ≠ .module .provider) (d : String) :
    w.chain.balance acc d - a.taken cr acc d ≤ w'.chain.balance acc d := by
  have htaken := a.taken_nonneg cr acc d
  have hspares : Spares acc w.chain w'.chain →
      w.chain.balance acc d - a.taken cr acc d ≤ w'.chain.balance acc d := by
    intro hs
    have := hs d
    omega
  cases step_outcome hi h with
  | rejected m => exact hspares (.refl _)
  | unsent src dst coin => exact hspares (.refl _)
  | provider m s' hdel hm hq hd =>
    obtain ⟨hv, hh⟩ := deliver_some hdel
    cases m with
    | bondProvider msg =>
      obtain ⟨service, addr, hbond, rfl⟩ := bondProvider_iff.mp hh
      have hsigner := MsgBondProvider.validateBasic_signer hv hbond.addr_eq
      have hle := w.chain.bonded_spares w.ctx hp msg service addr d
      unfold Action.taken Action.payer Action.price
      simp only [hsigner, Option.map_some, Option.some.injEq]
      simpa only [eq_comm (a := acc)] using hle
    | modProvider msg =>
      obtain ⟨-, -, hbank, -⟩ := modProvider_frame hh hb.stored
      exact hspares (.of_bank hbank)
    | registerService msg =>
      obtain ⟨-, -, rfl⟩ := registerService_ok hh
      exact hspares (.of_bank rfl)
    | updateService msg =>
      obtain ⟨_, -, -, rfl⟩ := updateService_ok hh
      exact hspares (.of_bank rfl)
    | removeService msg =>
      obtain ⟨svc, -, rfl⟩ := removeService_ok hh
      exact hspares (.of_bank rfl)
    | openContract msg => cases hm
    | closeContract msg => cases hm
    | claimContractIncome msg => cases hm
  | opened msg payer service c hsvc hvac hnew ho =>
    have hh : openContract cr w.ctx msg w.chain = .ok () (w.chain.opened w.ctx payer c) := by
      have hsome : (deliver cr w.ctx (.openContract msg) w.chain).isSome :=
        deliver_of_new h (by rw [ho.id_eq]; exact hi.lookup_next)
          (show (w.chain.opened w.ctx payer c).contracts.lookup c.id = some c by
            rw [ChainState.opened_lookup, if_pos rfl])
      obtain ⟨t, ht⟩ := Option.isSome_iff_exists.mp hsome
      simp only [step, ht] at h
      obtain rfl : t = w.chain.opened w.ctx payer c := congrArg World.chain (Option.some.inj h)
      exact (deliver_some ht).2
    obtain ⟨signer, hsigner, hothers⟩ := openContract_signer hi hh
    have hpayer : Action.payer cr (.msg (.openContract msg)) = some signer := hsigner
    by_cases hacc : acc = .user signer
    · have h0 : 0 ≤ c.deposit := ho.wf.paid_nonneg.trans ho.wf.paid_le
      have hle := w.chain.opened_spares w.ctx acc payer h0 d
      have hprice := Action.price_nonneg d (.msg (.openContract msg))
      have hcost : Action.price d (.msg (.openContract msg)) =
          (if d = denom then (fetchConfig .openContractCost).toInt else 0) +
            if d = c.rate.denom then c.deposit else 0 := by
        have hdeposit : c.deposit = msg.deposit := by rw [hnew]; rfl
        have hrate : c.rate = msg.rate := by rw [hnew]; rfl
        rw [← max_eq_left h0, hdeposit, hrate]
        rfl
      rw [← hcost] at hle
      rw [Action.taken, hpayer, Option.map_some, hacc, if_pos rfl]
      rw [hacc] at hle
      change _ ≤ (w.chain.opened w.ctx payer c).balance (.user signer) d
      generalize Action.price d (.msg (.openContract msg)) = price at hle hprice ⊢
      split at hle <;> omega
    · exact hspares (hothers acc hacc hc)
  | closed msg c t hd hstored hid hopen hby hs ht =>
    have hle := (hi.stored _ c hstored).wf.paid_le
    rw [ht] at *
    exact hspares (((Spares.relisted w.ctx c).trans (.settle hc hle c.isSubscription)).trans
      (.of_bank rfl))
  | claimed msg c hstored hid hn hset hf =>
    have hle := (hi.stored _ c hstored).wf.paid_le
    exact hspares (.settle (c := c.raiseNonce msg.nonce) hc hle false)
  | sent src dst coin h0 hle =>
    rw [ChainState.sent_balance]
    unfold Action.taken Action.payer Action.price
    simp only [Option.map_some, Option.some.injEq, eq_comm (a := acc)]
    by_cases hsrc : Account.user src = acc
    · simp only [hsrc, true_and, if_true]
      split <;> split <;> omega
    · simp only [hsrc, false_and, if_false]
      split <;> omega
  | ended ctx' hctx => exact hspares (.expireAll hc hi _)

/-! ## No coin is made or lost -/

theorem ChainState.expireAll_supply (hi : Inv cr ctx s) (ids : List ℕ) (d : String) :
    (s.expireAll cr ctx ids).bank.supply d = s.bank.supply d := by
  refine ChainState.expireAll_induct (P := fun t => t.bank.supply d = s.bank.supply d) ?_ hi rfl ids
  intro t c _ _ _ h
  exact (ChainState.settle_supply ..).trans h

theorem Outcome.supply (ho : Outcome cr w a w') (hi : Inv cr w.ctx w.chain) (hb : Bonded cr w)
    (d : String) : w'.chain.bank.supply d = w.chain.bank.supply d := by
  cases ho with
  | rejected m => rfl
  | unsent src dst coin => rfl
  | provider m s' hdel hm hq hd =>
    obtain ⟨-, hh⟩ := deliver_some hdel
    cases m with
    | bondProvider msg =>
      obtain ⟨service, addr, -, rfl⟩ := bondProvider_iff.mp hh
      exact w.chain.sent_supply ..
    | modProvider msg =>
      obtain ⟨-, -, hbank, -⟩ := modProvider_frame hh hb.stored
      rw [hbank]
    | registerService msg =>
      obtain ⟨-, -, rfl⟩ := registerService_ok hh
      rfl
    | updateService msg =>
      obtain ⟨_, -, -, rfl⟩ := updateService_ok hh
      rfl
    | removeService msg =>
      obtain ⟨svc, -, rfl⟩ := removeService_ok hh
      rfl
    | openContract msg => cases hm
    | closeContract msg => cases hm
    | claimContractIncome msg => cases hm
  | opened msg signer service c hsvc hv hc ho =>
    rw [ChainState.opened_bank, ChainState.charged, ChainState.sent_supply, ChainState.sent_supply]
  | closed msg c t hd hc hid hopen hby hs ht =>
    rw [ht, ChainState.settle_supply]
    unfold ChainState.relisted
    split <;> rfl
  | claimed msg c hc hid hn hset hf => exact ChainState.settle_supply ..
  | sent src dst coin h0 hle => exact w.chain.sent_supply ..
  | ended ctx' hctx => exact ChainState.expireAll_supply hi _ d

/-! ## A run -/

/-- **Only signers pay.**  From every genesis, in every run: an account that is not the contract
module's or the provider module's has at least what it had, less what the messages and the
transfers that carry its signature name.  Where it has signed nothing it has lost nothing. -/
theorem only_signers_pay (hg : Genesis w) {actions : List Action}
    (h : Runs.run (step cr) w actions = some w') (hc : acc ≠ .module .contract)
    (hp : acc ≠ .module .provider) (d : String) :
    w.chain.balance acc d - (actions.map (Action.taken cr acc d)).sum ≤ w'.chain.balance acc d := by
  refine (Runs.run_induct_history (P := fun actions v => Inv cr v.ctx v.chain ∧ Bonded cr v ∧
    w.chain.balance acc d - (actions.map (Action.taken cr acc d)).sum ≤ v.chain.balance acc d)
    ⟨hg.inv, hg.bonded, by simp⟩ ?_ h).2.2
  rintro l v a v' - ⟨hi, hb, hle⟩ hstep
  refine ⟨(step_outcome hi hstep).inv hi, (hb.step hi hstep).1, ?_⟩
  have hnext := step_spares hi hb hstep hc hp d
  rw [List.map_append, List.sum_append, List.map_singleton, List.sum_singleton]
  omega

/-- In the setup and the openings the client has signed for two contracts. -/
theorem client_pays_what_it_signs : ∃ w,
    Runs.run (step Sample.crypto) Sample.genesis (Sample.setup ++ Sample.openings) = some w ∧
    1000000000 - 40000110 ≤ w.chain.balance (.user Sample.client.addr) denom := by
  have hpays := only_signers_pay Sample.genesis_ok Sample.openings_run
    (show Account.user Sample.client.addr ≠ .module .contract by simp) (by simp) denom
  have htaken : ((Sample.setup ++ Sample.openings).map
      (Action.taken Sample.crypto (.user Sample.client.addr) denom)).sum = 40000110 := by
    decide +kernel
  have hstart : Sample.genesis.chain.balance (.user Sample.client.addr) denom = 1000000000 := by
    decide +kernel
  rw [htaken, hstart] at hpays
  exact ⟨_, Sample.openings_run, hpays⟩

end Arkeo
