import Arkeo.Reachable

/-! # What a contract pays depends on where it stands

A settlement pays the difference between what a contract has earned and what was
paid before, within the deposit.  However the income was split into claims and
closes, the sum is the same: for a pay-as-you-go contract it is fixed by the
largest nonce claimed, for a subscription by the height of the last settlement.
The nonces claimed on a contract grow strictly, so no claim is accepted twice.
-/
namespace Arkeo
open Exec

variable {cr : Crypto} {ctx : Context} {s s' : ChainState} {w w' : World} {a : Action} {k : ℕ}

/-- The contract an event says was settled. -/
def Event.settles? : Event → Option ℕ
  | .settleContract e => some e.contractId
  | _ => none

/-- The heights at which a contract was settled, the last one last. -/
def ChainState.settlements (s : ChainState) (k : ℕ) : List Int64 :=
  (s.events.filter fun e => e.2.settles? = some k).map Prod.fst

/-- The nonce of a claim on a contract. -/
def Msg.claimOn? (k : ℕ) : Msg → Option Int64
  | .claimContractIncome msg => if msg.contractId = k then some msg.nonce else none
  | _ => none

/-- The nonces of the accepted claims on a contract, the last one last. -/
def World.claimNonces (w : World) (k : ℕ) : List Int64 := w.accepted.filterMap (Msg.claimOn? k)

/-- The largest of the nonces, `0` when there is none. -/
def largest (nonces : List Int64) : ℤ := nonces.foldl (fun m n => max m n.toInt) 0

/-- What a subscription has earned at a height. -/
def Contract.earnedBy (c : Contract) (h : ℤ) : ℤ :=
  c.rate.amount * c.queriesPerMinute.toInt * (min h c.endHeight - c.height.toInt)

/-- The terms a contract was opened on; its deposit stands until it is settled. -/
structure Contract.OpenedBy (c : Contract) (e : EventOpenContract) : Prop where
  contractId : e.contractId = c.id
  type : e.type = c.type
  rate : e.rate = c.rate
  height : e.height = c.height
  duration : e.duration = c.duration
  queriesPerMinute : e.queriesPerMinute = c.queriesPerMinute
  deposit : c.settlementHeight = 0 → e.deposit = c.deposit

/-! ## The invariant -/

/-- Every contract has been paid what it has earned, up to its deposit. -/
structure Earned (ctx : Context) (s : ChainState) : Prop where
  terms : ∀ k c, s.contracts.lookup k = some c →
    ∃ t e, (t, .openContract e) ∈ s.events ∧ c.OpenedBy e
  payAsYouGo : ∀ k c, s.contracts.lookup k = some c → c.type = .payAsYouGo →
    c.paid = min c.deposit (c.rate.amount * c.nonce.toInt)
  subscription : ∀ k c, s.contracts.lookup k = some c → c.type = .subscription →
    c.paid = match (s.settlements k).getLast? with
      | none => 0
      | some h => min c.deposit (c.earnedBy h.toInt)
  unstored : ∀ k, s.contracts.lookup k = none → s.settlements k = []
  past : ∀ k, ∀ h ∈ s.settlements k, h.toInt ≤ ctx.blockHeight.toInt

theorem ChainState.settlements_append {es : List (Int64 × Event)} (he : s'.events = s.events ++ es)
    (hes : ∀ e ∈ es, e.2.settles? = none) (k : ℕ) : s'.settlements k = s.settlements k := by
  have hnil : es.filter (fun e => e.2.settles? = some k) = [] := by
    rw [List.filter_eq_nil_iff]
    intro e h
    simp [hes e h]
  rw [settlements, he, List.filter_append, hnil, List.append_nil, ← settlements]

theorem ChainState.settlements_settle (c : Contract) (isFinal : Bool) (k : ℕ) :
    (s.settle cr ctx c isFinal).settlements k =
      s.settlements k ++ if k = c.id then [ctx.blockHeight] else [] := by
  rw [settlements, settle_events, List.filter_append, List.map_append, ← settlements]
  by_cases hk : k = c.id
  · simp [hk, Event.settles?, settleEvent]
  · simp [hk, Ne.symm hk, Event.settles?, settleEvent]

/-- Steps that settle nothing. -/
theorem Earned.of_append (h : Earned ctx s) (hc : s'.contracts = s.contracts)
    {es : List (Int64 × Event)} (he : s'.events = s.events ++ es)
    (hes : ∀ e ∈ es, e.2.settles? = none) : Earned ctx s' := by
  have hset := ChainState.settlements_append he hes
  refine ⟨?_, ?_, ?_, ?_, ?_⟩
  · intro k c hl
    rw [hc] at hl
    obtain ⟨t, e, hmem, ho⟩ := h.terms k c hl
    exact ⟨t, e, by rw [he]; exact List.mem_append_left _ hmem, ho⟩
  · intro k c hl ht
    rw [hc] at hl
    exact h.payAsYouGo k c hl ht
  · intro k c hl ht
    rw [hc] at hl
    rw [hset]
    exact h.subscription k c hl ht
  · intro k hl
    rw [hc] at hl
    rw [hset]
    exact h.unstored k hl
  · intro k t ht
    rw [hset] at ht
    exact h.past k t ht

/-! ## A settlement -/

theorem Contract.toInt_raiseNonce (c : Contract) (nonce : Int64) :
    (c.raiseNonce nonce).nonce.toInt = max c.nonce.toInt nonce.toInt := by
  unfold raiseNonce
  simp only
  split
  · rename_i h
    rw [gt_iff_lt, Int64.lt_iff_toInt_lt] at h
    omega
  · rename_i h
    rw [gt_iff_lt, Int64.lt_iff_toInt_lt] at h
    omega

theorem Contract.earnedBy_mono {c : Contract} (hw : c.Wf cr) {h h' : ℤ} (hle : h ≤ h') :
    c.earnedBy h ≤ c.earnedBy h' :=
  Int.mul_le_mul_of_nonneg_left (by omega)
    (Int.mul_nonneg hw.rate_pos.le hw.queries_pos.le)

/-- A settlement brings what was paid up to what is due, when it was not above it. -/
theorem Contract.settled_paid {c : Contract} (hle : c.paid ≤ c.deposit)
    (hdue : c.paid ≤ min c.deposit (c.due ctx)) (isFinal : Bool) :
    (c.settled ctx isFinal).paid = min (c.settled ctx isFinal).deposit (c.due ctx) := by
  change c.paid + c.debt ctx = min (if isFinal then c.paid + c.debt ctx else c.deposit) (c.due ctx)
  rw [paid_add_debt hle]
  cases isFinal with
  | false => simp only [Bool.false_eq_true, if_false]; omega
  | true => simp only [if_true]; omega

theorem Earned.settle (h : Earned ctx s) (hi : Inv cr ctx s) {c : Contract}
    (hc : s.contracts.lookup c.id = some c) (nonce : Int64) (isFinal : Bool) :
    Earned ctx (s.settle cr ctx (c.raiseNonce nonce) isFinal) := by
  have hst := hi.stored _ c hc
  have hw := Inv.wf_raiseNonce hst.wf nonce
  have hev := s.settle_events cr ctx (c.raiseNonce nonce) isFinal
  refine ⟨?_, ?_, ?_, ?_, ?_⟩
  · intro k d hl
    rw [ChainState.settle_lookup] at hl
    rw [hev]
    by_cases hk : k = (c.raiseNonce nonce).id
    · rw [if_pos hk] at hl
      cases hl
      obtain ⟨t, e, hmem, ho⟩ := h.terms c.id c hc
      refine ⟨t, e, List.mem_append_left _ hmem, { ho with deposit := ?_ }⟩
      intro h0
      cases isFinal with
      | false => exact ho.deposit h0
      | true =>
        -- a final settlement stamps the height, which is not zero
        have hpos := ctx.pos
        have hzero : ctx.blockHeight = 0 := h0
        rw [hzero, Int64.toInt_zero] at hpos
        omega
    · rw [if_neg hk] at hl
      obtain ⟨t, e, hmem, ho⟩ := h.terms k d hl
      exact ⟨t, e, List.mem_append_left _ hmem, ho⟩
  · intro k d hl ht
    rw [ChainState.settle_lookup] at hl
    by_cases hk : k = (c.raiseNonce nonce).id
    · rw [if_pos hk] at hl
      cases hl
      have hpaid := h.payAsYouGo c.id c hc ht
      have hdue := (Contract.due_payAsYouGo ctx (show (c.raiseNonce nonce).type = _ from ht)).1
      have hmono : c.rate.amount * c.nonce.toInt ≤
          c.rate.amount * (c.raiseNonce nonce).nonce.toInt := by
        rw [Contract.toInt_raiseNonce]
        exact Int.mul_le_mul_of_nonneg_left (by omega) hst.wf.rate_pos.le
      have hle : c.paid ≤ min c.deposit ((c.raiseNonce nonce).due ctx) := by
        rw [hdue, Contract.raiseNonce_rate]
        omega
      rw [Contract.settled_paid hw.paid_le hle, hdue]
      rfl
    · rw [if_neg hk] at hl
      exact h.payAsYouGo k d hl ht
  · intro k d hl ht
    rw [ChainState.settle_lookup] at hl
    rw [ChainState.settlements_settle]
    by_cases hk : k = (c.raiseNonce nonce).id
    · rw [if_pos hk] at hl
      cases hl
      rw [if_pos hk, List.getLast?_concat]
      have hheight : (c.raiseNonce nonce).height.toInt ≤ ctx.blockHeight.toInt := hst.height_le
      have hdue : (c.raiseNonce nonce).due ctx = c.earnedBy ctx.blockHeight.toInt := by
        rw [(hw.due_subscription ht hheight).1, Contract.earnedBy, mul_right_comm]
        rfl
      have hle : c.paid ≤ min c.deposit (c.earnedBy ctx.blockHeight.toInt) := by
        have hpaid := h.subscription c.id c hc ht
        have hnonneg : 0 ≤ c.earnedBy ctx.blockHeight.toInt := by
          rw [← hdue]
          exact hw.due_nonneg hheight
        have hdep := hst.wf.paid_nonneg.trans hst.wf.paid_le
        cases hlast : (s.settlements c.id).getLast? with
        | none =>
          rw [hlast] at hpaid
          simp only at hpaid
          omega
        | some t =>
          -- the last settlement is not after this one
          have hpast := h.past c.id t (List.mem_of_getLast? hlast)
          have hmono := Contract.earnedBy_mono hst.wf hpast
          rw [hlast] at hpaid
          simp only at hpaid
          omega
      rw [Contract.settled_paid hw.paid_le (by rw [hdue]; exact hle), hdue]
      rfl
    · rw [if_neg hk] at hl
      rw [if_neg hk, List.append_nil]
      exact h.subscription k d hl ht
  · intro k hl
    rw [ChainState.settle_lookup] at hl
    by_cases hk : k = (c.raiseNonce nonce).id
    · rw [if_pos hk] at hl
      cases hl
    · rw [if_neg hk] at hl
      rw [ChainState.settlements_settle, if_neg hk, List.append_nil]
      exact h.unstored k hl
  · intro k t ht
    rw [ChainState.settlements_settle, List.mem_append] at ht
    rcases ht with ht | ht
    · exact h.past k t ht
    · split at ht
      · rw [List.mem_singleton.mp ht]
      · cases ht

/-! ## The other steps -/

theorem Earned.opened (h : Earned ctx s) (hi : Inv cr ctx s) {signer : Bytes} {c : Contract}
    (ho : Opening cr ctx s signer c) : Earned ctx (s.opened ctx signer c) := by
  have hnone : s.contracts.lookup c.id = none := by rw [ho.id_eq]; exact hi.lookup_next
  have hset := ChainState.settlements_append (ChainState.opened_events ctx s c signer)
    (fun e he => by rw [List.mem_singleton.mp he]; rfl)
  have hdep : 0 ≤ c.deposit := ho.wf.paid_nonneg.trans ho.wf.paid_le
  refine ⟨?_, ?_, ?_, ?_, ?_⟩
  · intro k d hl
    rw [ChainState.opened_lookup] at hl
    rw [ChainState.opened_events]
    split at hl
    · cases hl
      refine ⟨ctx.blockHeight, openEvent c, List.mem_append_right _ (List.mem_singleton_self _), ?_⟩
      exact ⟨rfl, rfl, rfl, rfl, rfl, rfl, fun _ => rfl⟩
    · obtain ⟨t, e, hmem, ho⟩ := h.terms k d hl
      exact ⟨t, e, List.mem_append_left _ hmem, ho⟩
  · intro k d hl ht
    rw [ChainState.opened_lookup] at hl
    split at hl
    · cases hl
      rw [ho.paid_eq, ho.nonce_eq, Int64.toInt_zero, Int.mul_zero]
      omega
    · exact h.payAsYouGo k d hl ht
  · intro k d hl ht
    rw [ChainState.opened_lookup] at hl
    rw [hset]
    split at hl
    · rename_i hk
      cases hl
      rw [hk, h.unstored _ hnone]
      exact ho.paid_eq
    · exact h.subscription k d hl ht
  · intro k hl
    rw [ChainState.opened_lookup] at hl
    rw [hset]
    split at hl
    · cases hl
    · exact h.unstored k hl
  · intro k t ht
    rw [hset] at ht
    exact h.past k t ht

theorem Earned.expireAll (h : Earned ctx s) (hi : Inv cr ctx s) (ids : List ℕ) :
    Earned ctx (s.expireAll cr ctx ids) := by
  refine ChainState.expireAll_induct ?_ hi h ids
  intro t c hi hc _ h
  exact (h.settle hi hc 0 true).of_append rfl (List.append_nil _).symm nofun

/-- **One step** keeps every contract paid what it has earned. -/
theorem Outcome.earned (ho : Outcome cr w a w') (hi : Inv cr w.ctx w.chain)
    (h : Earned w.ctx w.chain) : Earned w'.ctx w'.chain := by
  cases ho with
  | rejected m => exact h
  | unsent src dst coin => exact h
  | provider m s' hdel hm hq hd =>
    obtain ⟨es, he, hes⟩ := hq.events
    refine h.of_append hq.contracts he ?_
    intro e hmem
    have hquiet := hes e hmem
    cases he2 : e.2 with
    | settleContract x =>
      rw [he2] at hquiet
      cases hquiet
    | _ => rfl
  | opened msg signer service c hsvc hv hc ho => exact h.opened hi ho
  | closed msg c t hd hc hid hopen hby hs ht =>
    have hst := hi.stored _ c hc
    have hrel : Earned w.ctx (w.chain.relisted w.ctx c) := by
      have hev : (w.chain.relisted w.ctx c).events = w.chain.events ++ [] := by
        rw [List.append_nil]
        unfold ChainState.relisted
        split <;> rfl
      exact h.of_append (ChainState.relisted_contracts c) hev nofun
    have hset := hrel.settle (hi.relisted c) (ChainState.relisted_lookup w.ctx hc) 0
      c.isSubscription
    rw [hst.wf.raiseNonce_zero, ← ht] at hset
    refine hset.of_append rfl rfl ?_
    intro e he
    rw [List.mem_singleton.mp he]
    rfl
  | claimed msg c hc hid hn hset hf => exact h.settle hi hc msg.nonce false
  | sent src dst coin h0 hle =>
    exact h.of_append (ChainState.sent_contracts ..) (show _ = w.chain.events ++ [] by simp) nofun
  | ended ctx' hctx =>
    have hall := h.expireAll hi (w.chain.listedAt w.ctx.blockHeight)
    have hnext := Context.next_height hctx
    refine { hall with past := ?_ }
    intro k t ht
    have := hall.past k t ht
    simp only
    omega

/-! ## The claims -/

theorem largest_append (l : List Int64) (n : Int64) :
    largest (l ++ [n]) = max (largest l) n.toInt := by
  rw [largest, List.foldl_append]
  rfl

/-- The stored contracts are the same ones, with the same nonces. -/
structure SameNonces (s s' : ChainState) : Prop where
  nonce : ∀ k c, s'.contracts.lookup k = some c →
    ∃ d, s.contracts.lookup k = some d ∧ d.nonce = c.nonce
  none : ∀ k, s'.contracts.lookup k = none → s.contracts.lookup k = none

theorem SameNonces.of_eq (h : s'.contracts = s.contracts) : SameNonces s s' where
  nonce k c hc := ⟨c, by rw [← h]; exact hc, rfl⟩
  none k hk := by rw [← h]; exact hk

theorem SameNonces.trans {t : ChainState} (h : SameNonces s t) (h' : SameNonces t s') :
    SameNonces s s' := by
  refine ⟨?_, fun k hk => h.none k (h'.none k hk)⟩
  intro k c hc
  obtain ⟨d, hd, hdc⟩ := h'.nonce k c hc
  obtain ⟨e, he, hed⟩ := h.nonce k d hd
  exact ⟨e, he, hed.trans hdc⟩

theorem SameNonces.settle (ctx : Context) {c : Contract} (hw : c.Wf cr)
    (hc : s.contracts.lookup c.id = some c) (isFinal : Bool) :
    SameNonces s (s.settle cr ctx (c.raiseNonce 0) isFinal) := by
  rw [hw.raiseNonce_zero]
  refine ⟨?_, ?_⟩
  · intro k d hl
    rw [ChainState.settle_lookup] at hl
    split at hl
    · rename_i hk
      cases hl
      exact ⟨c, by rw [hk]; exact hc, rfl⟩
    · exact ⟨d, hl, rfl⟩
  · intro k hl
    rw [ChainState.settle_lookup] at hl
    split at hl
    · cases hl
    · exact hl

/-- The nonce of a contract is the largest one claimed on it. -/
structure Claimed (w : World) : Prop where
  nonce : ∀ k c, w.chain.contracts.lookup k = some c → c.nonce.toInt = largest (w.claimNonces k)
  increasing : ∀ k, (w.claimNonces k).Pairwise fun m n => m < n
  bounded : ∀ k, ∀ n ∈ w.claimNonces k, n.toInt ≤ largest (w.claimNonces k)
  unstored : ∀ k, w.chain.contracts.lookup k = none → w.claimNonces k = []

/-- Steps that accept no claim and leave the nonces alone. -/
theorem Claimed.of_same (h : Claimed w) (hn : ∀ k, w'.claimNonces k = w.claimNonces k)
    (hc : SameNonces w.chain w'.chain) : Claimed w' := by
  refine ⟨?_, ?_, ?_, ?_⟩
  · intro k c hl
    obtain ⟨d, hd, hdc⟩ := hc.nonce k c hl
    rw [hn, ← hdc]
    exact h.nonce k d hd
  · intro k
    rw [hn]
    exact h.increasing k
  · intro k
    rw [hn]
    exact h.bounded k
  · intro k hl
    rw [hn]
    exact h.unstored k (hc.none k hl)

/-- An accepted message other than a claim adds no nonce. -/
theorem World.claimNonces_other {m : Msg} (hm : ∀ k, m.claimOn? k = none) (ctx : Context)
    (s : ChainState) (k : ℕ) :
    ({ ctx := ctx, chain := s, accepted := w.accepted ++ [m] } : World).claimNonces k =
      w.claimNonces k := by
  simp [claimNonces, hm k]

theorem World.claimNonces_claim (msg : MsgClaimContractIncome) (ctx : Context) (s : ChainState)
    (k : ℕ) :
    ({ ctx := ctx, chain := s, accepted := w.accepted ++ [.claimContractIncome msg] } :
        World).claimNonces k =
      w.claimNonces k ++ if msg.contractId = k then [msg.nonce] else [] := by
  by_cases hk : msg.contractId = k
  · simp [claimNonces, Msg.claimOn?, hk]
  · simp [claimNonces, Msg.claimOn?, hk]

/-- A claim is accepted only above the nonce of its contract. -/
theorem Claimed.claim (h : Claimed w) {msg : MsgClaimContractIncome} {c : Contract}
    (hc : w.chain.contracts.lookup c.id = some c) (hid : c.id = msg.contractId)
    (hn : c.nonce < msg.nonce) :
    Claimed
      { w with
        chain := w.chain.settle cr w.ctx (c.raiseNonce msg.nonce) false
        accepted := w.accepted ++ [.claimContractIncome msg] } := by
  rw [Int64.lt_iff_toInt_lt] at hn
  have hlast := h.nonce c.id c hc
  refine ⟨?_, ?_, ?_, ?_⟩
  · intro k d hl
    rw [ChainState.settle_lookup] at hl
    rw [World.claimNonces_claim, ← hid]
    by_cases hk : k = c.id
    · rw [if_pos (by exact hk)] at hl
      cases hl
      rw [if_pos hk.symm, largest_append, hk, ← hlast]
      exact Contract.toInt_raiseNonce c msg.nonce
    · rw [if_neg (by exact hk)] at hl
      rw [if_neg (Ne.symm hk), List.append_nil]
      exact h.nonce k d hl
  · intro k
    rw [World.claimNonces_claim, ← hid]
    split
    · rename_i hk
      rw [List.pairwise_append]
      refine ⟨h.increasing k, List.pairwise_singleton _ _, ?_⟩
      intro m hm n hn'
      have hle := h.bounded k m hm
      rw [List.mem_singleton.mp hn', Int64.lt_iff_toInt_lt]
      rw [← hk] at hle
      omega
    · rw [List.append_nil]
      exact h.increasing k
  · intro k n hmem
    rw [World.claimNonces_claim, ← hid] at hmem ⊢
    split at hmem
    · rename_i hk
      rw [if_pos hk, largest_append]
      rcases List.mem_append.mp hmem with hm | hm
      · exact (h.bounded k n hm).trans (le_max_left _ _)
      · rw [List.mem_singleton.mp hm]
        exact le_max_right _ _
    · rename_i hk
      rw [List.append_nil] at hmem
      rw [if_neg hk, List.append_nil]
      exact h.bounded k n hmem
  · intro k hl
    rw [ChainState.settle_lookup] at hl
    rw [World.claimNonces_claim, ← hid]
    by_cases hk : k = c.id
    · rw [if_pos (by exact hk)] at hl
      cases hl
    · rw [if_neg (by exact hk)] at hl
      rw [if_neg (Ne.symm hk), List.append_nil]
      exact h.unstored k hl

/-- **One step** keeps the nonces in step with the claims. -/
theorem Outcome.claimed_nonces (ho : Outcome cr w a w') (hi : Inv cr w.ctx w.chain)
    (h : Claimed w) : Claimed w' := by
  cases ho with
  | rejected m => exact h
  | unsent src dst coin => exact h
  | provider m s' hdel hm hq hd =>
    have hno : ∀ k, m.claimOn? k = none := by
      cases m with
      | claimContractIncome msg => cases hm
      | _ => exact fun _ => rfl
    exact h.of_same (World.claimNonces_other hno _ _) (.of_eq hq.contracts)
  | opened msg signer service c hsvc hv hc ho =>
    have hnone : w.chain.contracts.lookup c.id = none := by rw [ho.id_eq]; exact hi.lookup_next
    have hsame := World.claimNonces_other (w := w) (m := .openContract msg) (fun _ => rfl) w.ctx
      (w.chain.opened w.ctx signer c)
    refine ⟨?_, ?_, ?_, ?_⟩
    · intro k d hl
      rw [ChainState.opened_lookup] at hl
      rw [hsame]
      split at hl
      · rename_i hk
        cases hl
        rw [hk, h.unstored _ hnone, ho.nonce_eq]
        rfl
      · exact h.nonce k d hl
    · intro k
      rw [hsame]
      exact h.increasing k
    · intro k
      rw [hsame]
      exact h.bounded k
    · intro k hl
      rw [ChainState.opened_lookup] at hl
      rw [hsame]
      split at hl
      · cases hl
      · exact h.unstored k hl
  | closed msg c t hd hc hid hopen hby hs ht =>
    have hw := (hi.stored _ c hc).wf
    have hrel : SameNonces w.chain (w.chain.relisted w.ctx c) :=
      .of_eq (ChainState.relisted_contracts c)
    have hset : SameNonces (w.chain.relisted w.ctx c) t := by
      rw [ht]
      have hzero := SameNonces.settle w.ctx hw (ChainState.relisted_lookup w.ctx hc)
        c.isSubscription
      rw [hw.raiseNonce_zero] at hzero
      exact hzero
    refine h.of_same (World.claimNonces_other (fun _ => rfl) _ _) ?_
    exact (hrel.trans hset).trans (.of_eq rfl)
  | claimed msg c hc hid hn hset hf => exact h.claim hc hid hn
  | sent src dst coin h0 hle =>
    exact h.of_same (fun _ => rfl) (.of_eq (ChainState.sent_contracts ..))
  | ended ctx' hctx =>
    refine h.of_same (fun _ => rfl) ?_
    refine ChainState.expireAll_induct (P := SameNonces w.chain) ?_ hi (.of_eq rfl) _
    intro t c hi hc _ hsame
    exact (hsame.trans (.settle _ (hi.stored _ c hc).wf hc true)).trans (.of_eq rfl)

/-! ## Runs -/

theorem Genesis.earned (hg : Genesis w) : Earned w.ctx w.chain where
  terms k c h := by rw [hg.contracts] at h; cases h
  payAsYouGo k c h := by rw [hg.contracts] at h; cases h
  subscription k c h := by rw [hg.contracts] at h; cases h
  unstored k h := by rw [ChainState.settlements, hg.events]; rfl
  past k t h := by rw [ChainState.settlements, hg.events] at h; cases h

theorem Genesis.claimed (hg : Genesis w) : Claimed w where
  nonce k c h := by rw [hg.contracts] at h; cases h
  increasing k := by rw [World.claimNonces, hg.accepted]; exact List.Pairwise.nil
  bounded k n h := by rw [World.claimNonces, hg.accepted] at h; cases h
  unstored k h := by rw [World.claimNonces, hg.accepted]; rfl

theorem reachable_earned (hg : Genesis w) {actions : List Action}
    (h : Runs.run (step cr) w actions = some w') : Earned w'.ctx w'.chain ∧ Claimed w' := by
  have hrun := Runs.run_induct
    (P := fun w => Inv cr w.ctx w.chain ∧ Earned w.ctx w.chain ∧ Claimed w)
    (fun w a w' hw hs =>
      have ho := step_outcome hw.1 hs
      ⟨ho.inv hw.1, ho.earned hw.1 hw.2.1, ho.claimed_nonces hw.1 hw.2.2⟩)
    ⟨hg.inv, hg.earned, hg.claimed⟩ h
  exact hrun.2

/-- **Payment is path independent and no claim is replayed.**  At every moment of
every run, what a contract has paid is fixed by its terms, its deposit (the one it
was opened with, until it is finally settled) and the end point: the largest nonce
claimed, or the height of the last settlement.  The nonces accepted for a contract
strictly increase. -/
theorem paid_is_path_independent (hg : Genesis w) {actions : List Action}
    (h : Runs.run (step cr) w actions = some w') {c : Contract}
    (hc : w'.chain.contracts.lookup k = some c) :
    (∃ t e, (t, .openContract e) ∈ w'.chain.events ∧ e.contractId = k ∧ c.OpenedBy e) ∧
    (c.type = .payAsYouGo →
      c.paid = min c.deposit (c.rate.amount * largest (w'.claimNonces k))) ∧
    (c.type = .subscription →
      c.paid = match (w'.chain.settlements k).getLast? with
        | none => 0
        | some h => min c.deposit (c.rate.amount * c.queriesPerMinute.toInt *
            (min h.toInt (c.height.toInt + c.duration.toInt) - c.height.toInt))) ∧
    (w'.claimNonces k).Pairwise fun m n => m < n := by
  obtain ⟨he, hn⟩ := reachable_earned hg h
  refine ⟨?_, ?_, he.subscription k c hc, hn.increasing k⟩
  · obtain ⟨t, e, hmem, ho⟩ := he.terms k c hc
    exact ⟨t, e, hmem, ho.contractId.trans ((reachable_inv hg h).stored k c hc).id_eq, ho⟩
  · intro ht
    rw [← hn.nonce k c hc]
    exact he.payAsYouGo k c hc ht

/-- In the sample run three calls of the second contract are claimed, and paid. -/
theorem paid_three_calls_at_lifetimes : ∃ w w' c,
    Runs.run (step Sample.crypto) Sample.genesis Sample.lifetimes = some w ∧
    step Sample.crypto w .endBlock = some w' ∧ w'.chain.contracts.lookup 2 = some c ∧
    (c.type = .payAsYouGo →
      c.paid = min c.deposit (c.rate.amount * largest (w'.claimNonces 2))) := by
  obtain ⟨w, w', c, hw, hw', hc, -⟩ := Sample.lifetimes_run
  have hall : Runs.run (step Sample.crypto) Sample.genesis (Sample.lifetimes ++ [.endBlock]) =
      some w' := Runs.run_append.mpr ⟨w, hw, Runs.run_cons.mpr ⟨w', hw', rfl⟩⟩
  exact ⟨w, w', c, hw, hw', hc, (paid_is_path_independent Sample.genesis_ok hall hc).2.1⟩

end Arkeo
