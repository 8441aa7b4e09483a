import Arkeo.Reachable

/-! # The history of a contract

A stored contract is never deleted, and its terms never change: a step may raise
its nonce, pay it, and settle it finally, once.  `Contract.Later` says what may
have become of a record, `Outcome.later` proves it of a step and `run_later` of a
run.
-/
namespace Arkeo
open Exec

variable {cr : Crypto} {ctx : Context} {s s' : ChainState} {w w' : World} {a : Action}

/-- The terms of a contract: the record without what a settlement writes. -/
def Contract.terms (c : Contract) : Contract :=
  { c with paid := 0, deposit := 0, nonce := 0, settlementHeight := 0 }

/-- `c'` is what may have become of `c`: it has the same terms, and if it is settled
and `c` was not, it was settled at one of the heights from `lo` to `hi`. -/
structure Contract.Later (lo hi : ℤ) (c c' : Contract) : Prop where
  terms : c'.terms = c.terms
  nonce_le : c.nonce.toInt ≤ c'.nonce.toInt
  settled : c'.settlementHeight = c.settlementHeight ∨ c.settlementHeight = 0 ∧
    lo ≤ c'.settlementHeight.toInt ∧ c'.settlementHeight.toInt ≤ hi

namespace Contract.Later

variable {c c' c'' : Contract} {lo lo' hi hi' : ℤ}

theorem refl (lo hi : ℤ) (c : Contract) : c.Later lo hi c := ⟨rfl, le_refl _, .inl rfl⟩

theorem mono (h : c.Later lo hi c') (hlo : lo' ≤ lo) (hhi : hi ≤ hi') : c.Later lo' hi' c' := by
  refine ⟨h.terms, h.nonce_le, ?_⟩
  rcases h.settled with he | ⟨h0, h1, h2⟩
  · exact .inl he
  · exact .inr ⟨h0, hlo.trans h1, h2.trans hhi⟩

theorem trans (h : c.Later lo hi c') (h' : c'.Later lo hi c'') : c.Later lo hi c'' := by
  refine ⟨h'.terms.trans h.terms, h.nonce_le.trans h'.nonce_le, ?_⟩
  rcases h'.settled with he' | ⟨h0', h1', h2'⟩
  · rw [he']
    exact h.settled
  · rcases h.settled with he | ⟨h0, -⟩
    · exact .inr ⟨he.symm.trans h0', h1', h2'⟩
    · exact .inr ⟨h0, h1', h2'⟩

/-- What depends on the terms only is the same. -/
theorem of_terms {α : Type} (h : c.Later lo hi c') (f : Contract → α)
    (hf : ∀ d : Contract, f d.terms = f d) : f c' = f c := by
  rw [← hf c', ← hf c, h.terms]

/-! What the terms fix. -/

theorem provider_eq (h : c.Later lo hi c') : c'.provider = c.provider :=
  h.of_terms Contract.provider fun _ => rfl

theorem service_eq (h : c.Later lo hi c') : c'.service = c.service :=
  h.of_terms Contract.service fun _ => rfl

theorem getSpender_eq (h : c.Later lo hi c') : c'.getSpender = c.getSpender :=
  h.of_terms Contract.getSpender fun _ => rfl

theorem expiration_eq (h : c.Later lo hi c') : c'.expiration = c.expiration :=
  h.of_terms Contract.expiration fun _ => rfl

theorem settlementPeriodEnd_eq (h : c.Later lo hi c') :
    c'.settlementPeriodEnd = c.settlementPeriodEnd :=
  h.of_terms Contract.settlementPeriodEnd fun _ => rfl

theorem settlementDuration_eq (h : c.Later lo hi c') :
    c'.settlementDuration = c.settlementDuration :=
  h.of_terms Contract.settlementDuration fun _ => rfl

theorem isSubscription_eq (h : c.Later lo hi c') : c'.isSubscription = c.isSubscription :=
  h.of_terms Contract.isSubscription fun _ => rfl

theorem isPayAsYouGo_eq (h : c.Later lo hi c') : c'.isPayAsYouGo = c.isPayAsYouGo :=
  h.of_terms Contract.isPayAsYouGo fun _ => rfl

/-- A contract that is still open was open. -/
theorem isOpen_of (h : c.Later lo hi c') {t : Int64} (ho : c'.isOpen t = true) :
    c.isOpen t = true := by
  have hh : c'.height = c.height := h.of_terms Contract.height fun _ => rfl
  have he := h.expiration_eq
  unfold Contract.isOpen Contract.isEmpty at ho ⊢
  rw [hh, he] at ho
  rcases h.settled with hs | ⟨h0, -⟩
  · rw [hs] at ho
    exact ho
  · rw [Bool.and_eq_true] at ho ⊢
    refine ⟨ho.1, ?_⟩
    rw [h0]
    rfl

end Contract.Later

/-- What a settlement makes of a record. -/
theorem Contract.later_settled (ctx : Context) (c : Contract) (nonce : Int64) {isFinal : Bool}
    (h0 : isFinal = true → c.settlementHeight = 0) :
    c.Later ctx.blockHeight.toInt ctx.blockHeight.toInt ((c.raiseNonce nonce).settled ctx isFinal) := by
  refine ⟨rfl, ?_, ?_⟩
  · show c.nonce.toInt ≤ (c.raiseNonce nonce).nonce.toInt
    unfold raiseNonce
    simp only
    split
    · rename_i h
      rw [gt_iff_lt, Int64.lt_iff_toInt_lt] at h
      exact h.le
    · exact le_refl _
  · cases isFinal with
    | true => exact .inr ⟨h0 rfl, le_refl _, le_refl _⟩
    | false => exact .inl rfl

/-- What may have become of the contracts of a store: each is still there, as a
later record, and what is new is one of the contracts `New`. -/
structure ChainState.Later (lo hi : ℤ) (s s' : ChainState) (New : ℕ → Contract → Prop) : Prop where
  kept : ∀ k c, s.contracts.lookup k = some c →
    ∃ c', s'.contracts.lookup k = some c' ∧ c.Later lo hi c'
  origin : ∀ k c', s'.contracts.lookup k = some c' →
    (∃ c, s.contracts.lookup k = some c ∧ c.Later lo hi c') ∨
      s.contracts.lookup k = none ∧ New k c'

namespace ChainState.Later

variable {lo hi : ℤ} {New : ℕ → Contract → Prop}

theorem of_eq (lo hi : ℤ) (New : ℕ → Contract → Prop) (h : s'.contracts = s.contracts) :
    Later lo hi s s' New := by
  refine ⟨?_, ?_⟩
  · intro k c hc
    exact ⟨c, by rw [h]; exact hc, .refl lo hi c⟩
  · intro k c' hc'
    rw [h] at hc'
    exact .inl ⟨c', hc', .refl lo hi c'⟩

theorem mono {New' : ℕ → Contract → Prop} (h : Later lo hi s s' New)
    (hnew : ∀ k c, New k c → New' k c) : Later lo hi s s' New' := by
  refine ⟨h.kept, ?_⟩
  intro k c' hc'
  rcases h.origin k c' hc' with hold | ⟨hn, hc⟩
  · exact .inl hold
  · exact .inr ⟨hn, hnew k c' hc⟩

/-- Steps one after the other, the second of which adds nothing. -/
theorem trans {t : ChainState} (h : Later lo hi s t New) (h' : Later lo hi t s' fun _ _ => False) :
    Later lo hi s s' fun k c' => ∃ c, New k c ∧ c.Later lo hi c' := by
  refine ⟨?_, ?_⟩
  · intro k c hc
    obtain ⟨d, hd, hcd⟩ := h.kept k c hc
    obtain ⟨e, he, hde⟩ := h'.kept k d hd
    exact ⟨e, he, hcd.trans hde⟩
  · intro k e he
    rcases h'.origin k e he with ⟨d, hd, hde⟩ | ⟨-, hfalse⟩
    · rcases h.origin k d hd with ⟨c, hc, hcd⟩ | ⟨hn, hnew⟩
      · exact .inl ⟨c, hc, hcd.trans hde⟩
      · exact .inr ⟨hn, d, hnew, hde⟩
    · exact hfalse.elim

theorem settle (cr : Crypto) (ctx : Context) {c : Contract}
    (hc : s.contracts.lookup c.id = some c) (nonce : Int64) {isFinal : Bool}
    (h0 : isFinal = true → c.settlementHeight = 0) :
    Later ctx.blockHeight.toInt ctx.blockHeight.toInt s
      (s.settle cr ctx (c.raiseNonce nonce) isFinal) fun _ _ => False := by
  refine ⟨?_, ?_⟩
  · intro k d hd
    rw [ChainState.settle_lookup]
    by_cases hk : k = c.id
    · subst hk
      rw [hc] at hd
      obtain rfl := Option.some.inj hd
      exact ⟨_, if_pos rfl, c.later_settled ctx nonce h0⟩
    · rw [if_neg (by exact hk)]
      exact ⟨d, hd, .refl _ _ d⟩
  · intro k d hd
    rw [ChainState.settle_lookup] at hd
    by_cases hk : k = c.id
    · subst hk
      rw [if_pos (show c.id = (c.raiseNonce nonce).id from rfl)] at hd
      obtain rfl := Option.some.inj hd
      exact .inl ⟨c, hc, c.later_settled ctx nonce h0⟩
    · rw [if_neg (by exact hk)] at hd
      exact .inl ⟨d, hd, .refl _ _ d⟩

theorem expireAll (hinv : Inv cr ctx s) (ids : List ℕ) :
    Later ctx.blockHeight.toInt ctx.blockHeight.toInt s (s.expireAll cr ctx ids)
      fun _ _ => False := by
  have hrefl : Later ctx.blockHeight.toInt ctx.blockHeight.toInt s s fun _ _ => False :=
    of_eq _ _ _ rfl
  refine ChainState.expireAll_induct (P := fun t => Later ctx.blockHeight.toInt
    ctx.blockHeight.toInt s t fun _ _ => False) ?_ hinv hrefl ids
  intro t c hi hc hs hst
  have hset := settle cr ctx hc 0 fun (_ : true = true) => hs
  have hunlist : Later ctx.blockHeight.toInt ctx.blockHeight.toInt t
      ((t.settle cr ctx (c.raiseNonce 0) true).unlist c.expiration) fun _ _ => False :=
    ⟨hset.kept, hset.origin⟩
  refine (hst.trans hunlist).mono ?_
  rintro k d ⟨_, hfalse, -⟩
  exact hfalse

end ChainState.Later

/-- A contract that a message opens now, under the next id. -/
def OpenedNow (cr : Crypto) (w : World) (a : Action) (k : ℕ) (c : Contract) : Prop :=
  ∃ msg service signer, a = .msg (.openContract msg) ∧ k = w.chain.getNextContractId ∧
    w.chain.serviceId? msg.service = some service ∧
    (msg.contractType ≠ .payAsYouGo → w.chain.Vacant w.ctx msg.spender msg.provider service) ∧
    c = newContract w.ctx msg service k msg.provider msg.client msg.spender ∧
    Opening cr w.ctx w.chain signer c

/-- **One step** of the history. -/
theorem Outcome.later (ho : Outcome cr w a w') (hi : Inv cr w.ctx w.chain) :
    ChainState.Later w.ctx.blockHeight.toInt w.ctx.blockHeight.toInt w.chain w'.chain
      (OpenedNow cr w a) := by
  cases ho with
  | rejected m => exact .of_eq _ _ _ rfl
  | unsent src dst coin => exact .of_eq _ _ _ rfl
  | provider m s' hdel hm hq hd => exact .of_eq _ _ _ hq.contracts
  | sent src dst coin h0 hle => exact .of_eq _ _ _ (ChainState.sent_contracts ..)
  | opened msg signer service c hsvc hv hc ho =>
    have hnone : w.chain.contracts.lookup c.id = none := by rw [ho.id_eq]; exact hi.lookup_next
    refine ⟨?_, ?_⟩
    · intro k d hd
      have hk : k ≠ c.id := by
        rintro rfl
        rw [hnone] at hd
        cases hd
      rw [ChainState.opened_lookup, if_neg hk]
      exact ⟨d, hd, .refl _ _ d⟩
    · intro k d hd
      rw [ChainState.opened_lookup] at hd
      by_cases hk : k = c.id
      · rw [if_pos hk] at hd
        obtain rfl := Option.some.inj hd
        rw [hk]
        refine .inr ⟨hnone, msg, service, signer, rfl, ho.id_eq, hsvc, hv, ?_, ho⟩
        rw [ho.id_eq]
        exact hc
      · rw [if_neg hk] at hd
        exact .inl ⟨d, hd, .refl _ _ d⟩
  | closed msg c t hd hc hid hopen hby hs ht =>
    have hst := hi.stored _ c hc
    have hset := ChainState.Later.settle cr w.ctx (ChainState.relisted_lookup w.ctx hc) 0 hs
    rw [hst.wf.raiseNonce_zero, ← ht] at hset
    have hrel : (w.chain.relisted w.ctx c).contracts = w.chain.contracts :=
      ChainState.relisted_contracts c
    refine ⟨?_, ?_⟩
    · intro k d hd
      exact hset.kept k d (by rw [hrel]; exact hd)
    · intro k d hd
      rcases hset.origin k d hd with hold | ⟨-, hfalse⟩
      · rw [hrel] at hold
        exact .inl hold
      · exact hfalse.elim
  | claimed msg c hc hid hn hset hf =>
    have hnot : false = true → c.settlementHeight = 0 := fun h => absurd h Bool.false_ne_true
    exact (ChainState.Later.settle cr w.ctx hc msg.nonce hnot).mono fun _ _ h => h.elim
  | ended ctx' hctx => exact (ChainState.Later.expireAll hi _).mono fun _ _ h => h.elim

/-- The heights of a run never go back. -/
theorem step_height (hi : Inv cr w.ctx w.chain) (h : step cr w a = some w') :
    w.ctx.blockHeight.toInt ≤ w'.ctx.blockHeight.toInt := by
  cases step_outcome hi h with
  | ended ctx' hctx =>
    have := Context.next_height hctx
    simp only
    omega
  | _ => exact le_refl _

/-- **The history of a contract in a run.**  It is never deleted, its terms never
change, and if it was not settled before, it is settled at a height of the run. -/
theorem run_later (hi : Inv cr w.ctx w.chain) {actions : List Action}
    (h : Runs.run (step cr) w actions = some w') {k : ℕ} {c : Contract}
    (hc : w.chain.contracts.lookup k = some c) :
    ∃ c', w'.chain.contracts.lookup k = some c' ∧
      c.Later w.ctx.blockHeight.toInt w'.ctx.blockHeight.toInt c' := by
  have hall : Inv cr w'.ctx w'.chain ∧
      w.ctx.blockHeight.toInt ≤ w'.ctx.blockHeight.toInt ∧
      ∃ c', w'.chain.contracts.lookup k = some c' ∧
        c.Later w.ctx.blockHeight.toInt w'.ctx.blockHeight.toInt c' := by
    refine Runs.run_induct (P := fun v => Inv cr v.ctx v.chain ∧
      w.ctx.blockHeight.toInt ≤ v.ctx.blockHeight.toInt ∧
      ∃ c', v.chain.contracts.lookup k = some c' ∧
        c.Later w.ctx.blockHeight.toInt v.ctx.blockHeight.toInt c') ?_
      ⟨hi, le_refl _, c, hc, .refl _ _ c⟩ h
    rintro v b v' ⟨hv, hle, d, hd, hcd⟩ hstep
    have ho := step_outcome hv hstep
    have hle' := step_height hv hstep
    obtain ⟨e, he, hde⟩ := (ho.later hv).kept k d hd
    exact ⟨ho.inv hv, hle.trans hle', e, he,
      (hcd.mono (le_refl _) hle').trans (hde.mono hle hle')⟩
  exact hall.2.2

/-! ## Settlements lie in the past -/

/-- No settled contract is from the future. -/
def ChainState.SettledBy (s : ChainState) (height : ℤ) : Prop :=
  ∀ k c, s.contracts.lookup k = some c → c.settlementHeight.toInt ≤ height

theorem Outcome.settledBy (ho : Outcome cr w a w') (hi : Inv cr w.ctx w.chain)
    (hle : w.ctx.blockHeight.toInt ≤ w'.ctx.blockHeight.toInt)
    (h : w.chain.SettledBy w.ctx.blockHeight.toInt) : w'.chain.SettledBy w'.ctx.blockHeight.toInt := by
  intro k c' hc'
  refine le_trans ?_ hle
  rcases (ho.later hi).origin k c' hc' with ⟨c, hc, hlater⟩ | ⟨-, hnew⟩
  · rcases hlater.settled with he | ⟨-, -, hhi⟩
    · rw [he]
      exact h k c hc
    · exact hhi
  · obtain ⟨msg, service, signer, -, -, -, -, -, hop⟩ := hnew
    rw [hop.settlementHeight_eq]
    exact w.ctx.pos.le

/-- What the step lemma starts from. -/
structure Settled (cr : Crypto) (w : World) : Prop where
  inv : Inv cr w.ctx w.chain
  settledBy : w.chain.SettledBy w.ctx.blockHeight.toInt

theorem Settled.step (h : Settled cr w) (hstep : step cr w a = some w') : Settled cr w' := by
  have ho := step_outcome h.inv hstep
  exact ⟨ho.inv h.inv, ho.settledBy h.inv (step_height h.inv hstep) h.settledBy⟩

theorem Genesis.settled (hg : Genesis w) : Settled cr w := by
  refine ⟨hg.inv, ?_⟩
  intro k c hc
  rw [hg.contracts] at hc
  cases hc

end Arkeo
