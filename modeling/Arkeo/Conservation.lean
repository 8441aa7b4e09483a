import Arkeo.Reachable

/-! # The life of a deposit

What a contract was opened with is, at every later moment, what the provider, the
reserve and the client have received for it and what remains of its deposit.
Once the contract is finally settled this account is closed: nothing is moved on
its behalf any more, whatever messages and blocks follow.

Coins are followed in the bank's journal, through the purposes of its postings.
-/
namespace Arkeo
open Exec

variable {cr : Crypto} {ctx : Context} {s s' : ChainState} {w w' : World} {a : Action} {k : ℕ}

/-- The contract a transfer is made for. -/
def Purpose.contractId? : Purpose → Option ℕ
  | .deposit k => some k
  | .income k => some k
  | .tax k => some k
  | .refund k => some k
  | _ => none

/-- The transfers made for a contract. -/
def ChainState.postings (s : ChainState) (k : ℕ) : List Posting :=
  s.journal.filter fun p => p.purpose.contractId? = some k

/-- The coins moved for a purpose. -/
def ChainState.moved (s : ChainState) (q : Purpose) : ℤ :=
  (s.journal.map fun p => if p.purpose = q then p.coin.amount else 0).sum

/-- What has left the contract module for a contract. -/
def ChainState.paidOut (s : ChainState) (k : ℕ) : ℤ :=
  s.moved (.income k) + s.moved (.tax k) + s.moved (.refund k)

/-- A transfer for a contract is between the right accounts, in its denomination. -/
def Posting.Addressed (cr : Crypto) (c : Contract) (p : Posting) : Prop :=
  p.coin.denom = c.rate.denom ∧
    match p.purpose with
    | .deposit _ => p.dst = .module .contract
    | .income _ => p.src = .module .contract ∧ p.dst = cr.account c.provider
    | .tax _ => p.src = .module .contract ∧ p.dst = .module .reserve
    | .refund _ => p.src = .module .contract ∧ p.dst = cr.account c.client
    | _ => True

/-! ## The journal -/

theorem ChainState.moved_sent (src dst : Account) (coin : Coin) (p q : Purpose) :
    (s.sent src dst coin p).moved q = s.moved q + if p = q then coin.amount else 0 := by
  unfold moved
  rw [sent_journal, List.map_append, List.sum_append]
  by_cases h0 : coin.amount = 0
  · simp [h0]
  · simp [h0]

theorem ChainState.postings_sent (src dst : Account) (coin : Coin) (p : Purpose)
    (hp : p.contractId? ≠ some k) : (s.sent src dst coin p).postings k = s.postings k := by
  unfold postings
  rw [sent_journal, List.filter_append]
  by_cases h0 : coin.amount = 0
  · simp [h0]
  · simp [h0, hp]

theorem ChainState.mem_postings_sent {src dst : Account} {coin : Coin} {p : Purpose} {x : Posting}
    (h : x ∈ (s.sent src dst coin p).postings k) : x ∈ s.postings k ∨ x = ⟨src, dst, coin, p⟩ := by
  unfold postings at h ⊢
  rw [sent_journal, List.filter_append, List.mem_append] at h
  rcases h with h | h
  · exact .inl h
  · have hx := (List.mem_filter.mp h).1
    by_cases h0 : coin.amount = 0
    · simp [h0] at hx
    · simp only [h0, if_false, List.mem_singleton] at hx
      exact .inr hx

/-! ## A settlement in the journal -/

theorem ChainState.moved_settle (c : Contract) (isFinal : Bool) (q : Purpose) :
    (s.settle cr ctx c isFinal).moved q = s.moved q +
      (if .income c.id = q then c.debt ctx - reserveShare (c.debt ctx) else 0) +
      (if .tax c.id = q then reserveShare (c.debt ctx) else 0) +
      if .refund c.id = q then (if isFinal then c.remaining - c.debt ctx else 0) else 0 := by
  rw [moved, settle_journal, ← moved, payout, moved_sent, moved_sent, moved_sent]

theorem ChainState.moved_settle_of_ne {c : Contract} (isFinal : Bool) {q : Purpose}
    (hq : q.contractId? = some k) (hk : k ≠ c.id) :
    (s.settle cr ctx c isFinal).moved q = s.moved q := by
  have hne : ∀ p : Purpose, p.contractId? = some c.id → p ≠ q := by
    rintro p hp rfl
    exact hk (Option.some.inj (hq.symm.trans hp))
  rw [moved_settle, if_neg (hne (.income c.id) rfl), if_neg (hne (.tax c.id) rfl),
    if_neg (hne (.refund c.id) rfl)]
  omega

/-- What leaves the module for the contract is what the remaining deposit shrinks
by; nothing leaves it for another. -/
theorem ChainState.paidOut_settle (c : Contract) (isFinal : Bool) (k : ℕ) :
    (s.settle cr ctx c isFinal).paidOut k = s.paidOut k +
      if k = c.id then c.remaining - (c.settled ctx isFinal).remaining else 0 := by
  unfold paidOut
  rw [moved_settle, moved_settle, moved_settle, Contract.settled_remaining]
  by_cases hk : k = c.id
  · subst hk
    simp
    omega
  · simp [hk, Ne.symm hk]

theorem ChainState.postings_settle (c : Contract) (isFinal : Bool) (hk : k ≠ c.id) :
    (s.settle cr ctx c isFinal).postings k = s.postings k := by
  have hne : some c.id ≠ some k := fun h => hk (Option.some.inj h).symm
  rw [postings, settle_journal, ← postings, payout]
  exact (postings_sent _ _ _ (.refund c.id) hne).trans
    ((postings_sent _ _ _ (.tax c.id) hne).trans (postings_sent _ _ _ (.income c.id) hne))

theorem ChainState.mem_postings_settle {c : Contract} {isFinal : Bool} {x : Posting}
    (h : x ∈ (s.settle cr ctx c isFinal).postings k) : x ∈ s.postings k ∨ x.Addressed cr c := by
  rw [postings, settle_journal, ← postings, payout] at h
  rcases mem_postings_sent h with h | rfl
  · rcases mem_postings_sent h with h | rfl
    · rcases mem_postings_sent h with h | rfl
      · exact .inl h
      · exact .inr ⟨rfl, rfl, rfl⟩
    · exact .inr ⟨rfl, rfl, rfl⟩
  · exact .inr ⟨rfl, rfl, rfl⟩

/-! ## The invariant -/

/-- The books: every contract was opened by an event, its deposit went into the
module, and what has left the module and what remains add up to it. -/
structure Booked (cr : Crypto) (s : ChainState) : Prop where
  conserved : ∀ k c, s.contracts.lookup k = some c → ∃ t e, (t, .openContract e) ∈ s.events ∧
    e.contractId = k ∧ s.moved (.deposit k) = e.deposit ∧ e.deposit = s.paidOut k + c.remaining
  addressed : ∀ k c, s.contracts.lookup k = some c → ∀ p ∈ s.postings k, p.Addressed cr c
  fresh : ∀ k, s.getNextContractId ≤ k → s.postings k = []

/-- Nothing has moved for a contract without postings. -/
theorem ChainState.moved_eq_zero {q : Purpose} (hq : q.contractId? = some k)
    (h : s.postings k = []) : s.moved q = 0 := by
  refine List.sum_eq_zero ?_
  intro x hx
  obtain ⟨p, hp, rfl⟩ := List.mem_map.mp hx
  refine if_neg ?_
  rintro rfl
  have hmem : p ∈ s.postings k := List.mem_filter.mpr ⟨hp, by simpa using hq⟩
  rw [h] at hmem
  cases hmem

/-- What is booked for no contract moves nothing for one. -/
theorem ChainState.moved_append {ps : List Posting} (hj : s'.journal = s.journal ++ ps)
    (hps : ∀ p ∈ ps, p.purpose.contractId? = none) {q : Purpose} (hq : q.contractId? = some k) :
    s'.moved q = s.moved q := by
  unfold moved
  rw [hj, List.map_append, List.sum_append]
  have hzero : (ps.map fun p => if p.purpose = q then p.coin.amount else 0).sum = 0 := by
    refine List.sum_eq_zero ?_
    intro x hx
    obtain ⟨p, hp, rfl⟩ := List.mem_map.mp hx
    refine if_neg ?_
    rintro rfl
    rw [hps p hp] at hq
    cases hq
  rw [hzero, Int.add_zero]

/-- A change that books nothing for a contract keeps the books. -/
theorem Booked.of_append (hb : Booked cr s) (hc : s'.contracts = s.contracts)
    (hn : s'.nextContractId = s.nextContractId) {ps : List Posting} (hj : s'.journal = s.journal ++ ps)
    (hps : ∀ p ∈ ps, p.purpose.contractId? = none) {es : List (Int64 × Event)}
    (he : s'.events = s.events ++ es) : Booked cr s' := by
  have hpost : ∀ k, s'.postings k = s.postings k := by
    intro k
    unfold ChainState.postings
    rw [hj, List.filter_append]
    have hnil : ps.filter (fun p => p.purpose.contractId? = some k) = [] := by
      rw [List.filter_eq_nil_iff]
      intro p hp
      simp [hps p hp]
    rw [hnil, List.append_nil]
  refine ⟨?_, ?_, ?_⟩
  · intro k c h
    rw [hc] at h
    obtain ⟨t, e, hmem, hid, hdep, hsum⟩ := hb.conserved k c h
    refine ⟨t, e, by rw [he]; exact List.mem_append_left _ hmem, hid, ?_, ?_⟩
    · rw [ChainState.moved_append hj hps rfl]
      exact hdep
    · rw [ChainState.paidOut, ChainState.moved_append hj hps rfl, ChainState.moved_append hj hps rfl,
        ChainState.moved_append hj hps rfl]
      exact hsum
  · intro k c h
    rw [hc] at h
    rw [hpost]
    exact hb.addressed k c h
  · intro k hk
    rw [ChainState.getNextContractId, hn] at hk
    rw [hpost]
    exact hb.fresh k hk

/-- A settlement of a stored contract keeps the books. -/
theorem Booked.settle (hb : Booked cr s) (hi : Inv cr ctx s) {c : Contract} (hc : s.contracts.lookup c.id = some c)
    (nonce : Int64) (isFinal : Bool) :
    Booked cr (s.settle cr ctx (c.raiseNonce nonce) isFinal) := by
  have hev := s.settle_events cr ctx (c.raiseNonce nonce) isFinal
  refine ⟨?_, ?_, ?_⟩
  · intro k c' h
    rw [ChainState.settle_lookup] at h
    have hdep : (s.settle cr ctx (c.raiseNonce nonce) isFinal).moved (.deposit k) =
        s.moved (.deposit k) := by
      rw [ChainState.moved_settle]
      simp
    rw [hdep, ChainState.paidOut_settle, hev]
    by_cases hk : k = (c.raiseNonce nonce).id
    · rw [if_pos hk] at h
      cases h
      obtain ⟨t, e, hmem, hid, hd, hsum⟩ := hb.conserved c.id c hc
      refine ⟨t, e, List.mem_append_left _ hmem, hid.trans hk.symm, by rw [hk]; exact hd, ?_⟩
      rw [if_pos hk, hk, Contract.raiseNonce_id, Contract.raiseNonce_remaining]
      omega
    · rw [if_neg hk] at h
      obtain ⟨t, e, hmem, hid, hd, hsum⟩ := hb.conserved k c' h
      exact ⟨t, e, List.mem_append_left _ hmem, hid, hd, by rw [if_neg hk]; omega⟩
  · intro k c' h p hp
    rw [ChainState.settle_lookup] at h
    by_cases hk : k = (c.raiseNonce nonce).id
    · rw [if_pos hk] at h
      cases h
      rcases ChainState.mem_postings_settle hp with hp | hp
      · rw [hk] at hp
        exact hb.addressed c.id c hc p hp
      · exact hp
    · rw [if_neg hk] at h
      rw [ChainState.postings_settle _ _ hk] at hp
      exact hb.addressed k c' h p hp
  · intro k hk
    rw [ChainState.getNextContractId, ChainState.settle_nextContractId,
      ← ChainState.getNextContractId] at hk
    have hlt := (hi.stored _ c hc).lt_next
    rw [ChainState.postings_settle _ _ (show k ≠ (c.raiseNonce nonce).id by
      rw [Contract.raiseNonce_id]; omega)]
    exact hb.fresh k hk

/-- Opening a contract moves its deposit. -/
theorem ChainState.moved_opened {signer : Bytes} {c : Contract} {q : Purpose} (hq : q ≠ .openCost) :
    (s.opened ctx signer c).moved q = s.moved q + if .deposit c.id = q then c.deposit else 0 := by
  change (s.charged signer c).moved q = _
  rw [charged, moved_sent, moved_sent, if_neg (Ne.symm hq), Int.add_zero]

/-- Opening a contract opens its books. -/
theorem Booked.opened (hb : Booked cr s) {signer : Bytes} {c : Contract}
    (ho : Opening cr ctx s signer c) : Booked cr (s.opened ctx signer c) := by
  have hfresh : s.postings c.id = [] := hb.fresh _ ho.id_eq.ge
  have hpost : ∀ k x, x ∈ (s.opened ctx signer c).postings k → x ∈ s.postings k ∨
      x = ⟨.user signer, .module .contract, ⟨c.rate.denom, c.deposit⟩, .deposit c.id⟩ := by
    intro k x hx
    change x ∈ (s.charged signer c).postings k at hx
    rcases ChainState.mem_postings_sent hx with h | h
    · rw [ChainState.postings_sent _ _ _ _ (by simp [Purpose.contractId?])] at h
      exact .inl h
    · exact .inr h
  refine ⟨?_, ?_, ?_⟩
  · intro k c' h
    rw [ChainState.opened_lookup] at h
    rw [ChainState.opened_events, ChainState.paidOut, ChainState.moved_opened (by simp),
      ChainState.moved_opened (by simp), ChainState.moved_opened (by simp),
      ChainState.moved_opened (by simp)]
    by_cases hk : k = c.id
    · rw [if_pos hk] at h
      cases h
      subst hk
      have hrem : c.remaining = c.deposit := by
        unfold Contract.remaining
        rw [ho.paid_eq, Int.sub_zero]
      refine ⟨ctx.blockHeight, openEvent c, List.mem_append_right _ (List.mem_singleton_self _), rfl,
        ?_, ?_⟩
      · rw [if_pos rfl, ChainState.moved_eq_zero rfl hfresh, Int.zero_add]
        rfl
      · rw [ChainState.moved_eq_zero rfl hfresh, ChainState.moved_eq_zero rfl hfresh,
          ChainState.moved_eq_zero rfl hfresh, hrem]
        simp [openEvent]
    · rw [if_neg hk] at h
      obtain ⟨t, e, hmem, hid, hd, hsum⟩ := hb.conserved k c' h
      refine ⟨t, e, List.mem_append_left _ hmem, hid, ?_, ?_⟩
      · rw [if_neg (by simp [Ne.symm hk]), Int.add_zero]
        exact hd
      · unfold ChainState.paidOut at hsum
        simpa using hsum
  · intro k c' h p hp
    rw [ChainState.opened_lookup] at h
    rcases hpost k p hp with hp' | rfl
    · by_cases hk : k = c.id
      · rw [hk, hfresh] at hp'
        cases hp'
      · rw [if_neg hk] at h
        exact hb.addressed k c' h p hp'
    · have hk : k = c.id := by
        have h2 := (List.mem_filter.mp hp).2
        simpa [Purpose.contractId?, eq_comm] using h2
      rw [if_pos hk] at h
      cases h
      exact ⟨rfl, rfl⟩
  · intro k hk
    rw [ChainState.opened_getNextContractId] at hk
    refine List.eq_nil_iff_forall_not_mem.mpr fun x hx => ?_
    rcases hpost k x hx with hx' | rfl
    · rw [hb.fresh k (by rw [← ho.id_eq]; omega)] at hx'
      cases hx'
    · have h2 := (List.mem_filter.mp hx).2
      simp only [Purpose.contractId?, Option.some.injEq, decide_eq_true_eq] at h2
      omega

theorem Booked.expireAll (hb : Booked cr s) (hi : Inv cr ctx s) (ids : List ℕ) :
    Booked cr (s.expireAll cr ctx ids) := by
  refine ChainState.expireAll_induct ?_ hi hb ids
  intro t c hi hc _ hb
  have hset := hb.settle hi hc 0 true
  exact ⟨hset.conserved, hset.addressed, hset.fresh⟩

/-- **One step** keeps the books. -/
theorem Outcome.booked (ho : Outcome cr w a w') (hi : Inv cr w.ctx w.chain)
    (hb : Booked cr w.chain) : Booked cr w'.chain := by
  cases ho with
  | rejected m => exact hb
  | unsent src dst coin => exact hb
  | provider m s' hdel hm hq hd =>
    obtain ⟨ps, hj, hps⟩ := hq.journal
    obtain ⟨es, he, -⟩ := hq.events
    refine hb.of_append hq.contracts hq.nextContractId hj ?_ he
    intro p hp
    rw [hps p hp]
    rfl
  | opened msg signer service c hsvc hv hc ho => exact hb.opened ho
  | closed msg c t hd hc hid hopen hby hs ht =>
    have hst := hi.stored _ c hc
    have hrel : Booked cr (w.chain.relisted w.ctx c) := by
      unfold ChainState.relisted
      split
      · exact ⟨hb.conserved, hb.addressed, hb.fresh⟩
      · exact hb
    have hc' := ChainState.relisted_lookup w.ctx hc
    have hset := hrel.settle (hi.relisted c) hc' 0 c.isSubscription
    rw [hst.wf.raiseNonce_zero, ← ht] at hset
    exact hset.of_append rfl rfl (List.append_nil _).symm nofun rfl
  | claimed msg c hc hid hn hset hf => exact hb.settle hi hc msg.nonce false
  | sent src dst coin h0 hle =>
    refine hb.of_append (ChainState.sent_contracts ..) (ChainState.sent_nextContractId ..)
      (ChainState.sent_journal ..) ?_ (show _ = w.chain.events ++ [] by simp)
    intro p hp
    rw [if_neg (by omega)] at hp
    rw [List.mem_singleton.mp hp]
    rfl
  | ended ctx' hctx => exact hb.expireAll hi _

theorem Genesis.booked (hg : Genesis w) : Booked cr w.chain where
  conserved k c h := by rw [hg.contracts] at h; cases h
  addressed k c h := by rw [hg.contracts] at h; cases h
  fresh k _ := by
    rw [ChainState.postings, hg.journal]
    rfl

theorem run_booked (hg : Genesis w) {actions : List Action}
    (h : Runs.run (step cr) w actions = some w') : Booked cr w'.chain := by
  have hrun := Runs.run_induct (P := fun w => Inv cr w.ctx w.chain ∧ Booked cr w.chain)
    (fun w a w' hw hs =>
      have ho := step_outcome hw.1 hs
      ⟨ho.inv hw.1, ho.booked hw.1 hw.2⟩) ⟨hg.inv, hg.booked⟩ h
  exact hrun.2

/-! ## Finality -/

/-- The account of a contract is closed: it is settled, with these amounts and
these postings. -/
def Closed (k : ℕ) (paid deposit : ℤ) (ps : List Posting) (s : ChainState) : Prop :=
  s.postings k = ps ∧ ∃ c, s.contracts.lookup k = some c ∧ c.settlementHeight ≠ 0 ∧
    c.paid = paid ∧ c.deposit = deposit

variable {paid deposit : ℤ} {ps : List Posting}

theorem Closed.of_eq (h : Closed k paid deposit ps s) (hc : s'.contracts = s.contracts)
    (hj : s'.postings k = s.postings k) : Closed k paid deposit ps s' := by
  obtain ⟨hp, c, hl, hs, h1, h2⟩ := h
  exact ⟨hj.trans hp, c, by rw [hc]; exact hl, hs, h1, h2⟩

/-- Nothing is owed on a settled contract, so a settlement of it that is not final
pays nothing. -/
theorem settle_of_settled (ctx : Context) (s : ChainState) {c : Contract} (hw : c.Wf cr)
    (hs : c.settlementHeight ≠ 0) (nonce : Int64) : (c.raiseNonce nonce).debt ctx = 0 ∧
      (s.settle cr ctx (c.raiseNonce nonce) false).journal = s.journal := by
  have hpd := hw.settled_paid hs
  have hd0 : (c.raiseNonce nonce).debt ctx = 0 := by
    have hle : (c.raiseNonce nonce).paid ≤ (c.raiseNonce nonce).deposit := hw.paid_le
    have h1 := Contract.debt_nonneg ctx hle
    have h2 := Contract.debt_le ctx hle
    rw [Contract.raiseNonce_remaining, Contract.remaining, hpd, Int.sub_self] at h2
    omega
  have hr0 : reserveShare 0 = 0 := by
    obtain ⟨h1, h2⟩ := reserveShare_bounds (le_refl 0)
    omega
  refine ⟨hd0, ?_⟩
  rw [ChainState.settle_journal, hd0, hr0, Int.sub_self, if_neg Bool.false_ne_true,
    ChainState.payout, ChainState.sent_zero, ChainState.sent_zero, ChainState.sent_zero]

theorem Closed.settle (h : Closed k paid deposit ps s) (hi : Inv cr ctx s) {c : Contract}
    (hc : s.contracts.lookup c.id = some c) (nonce : Int64) {isFinal : Bool}
    (hf : isFinal = true → c.settlementHeight = 0) :
    Closed k paid deposit ps (s.settle cr ctx (c.raiseNonce nonce) isFinal) := by
  obtain ⟨hp, d, hl, hs, h1, h2⟩ := h
  by_cases hk : k = c.id
  · subst hk
    obtain rfl := Option.some.inj (hc.symm.trans hl)
    have hnf : isFinal = false := by
      cases isFinal with
      | false => rfl
      | true => exact absurd (hf rfl) hs
    subst hnf
    obtain ⟨hd0, hj⟩ := settle_of_settled ctx s (hi.stored _ c hc).wf hs nonce
    refine ⟨?_, (c.raiseNonce nonce).settled ctx false, ?_, hs, ?_, h2⟩
    · rw [ChainState.postings, hj]
      exact hp
    · rw [ChainState.settle_lookup]
      exact if_pos rfl
    · change c.paid + (c.raiseNonce nonce).debt ctx = paid
      rw [hd0, Int.add_zero]
      exact h1
  · refine ⟨?_, d, ?_, hs, h1, h2⟩
    · have hid : k ≠ (c.raiseNonce nonce).id := hk
      rw [ChainState.postings_settle _ _ hid]
      exact hp
    · rw [ChainState.settle_lookup, Contract.raiseNonce_id, if_neg hk]
      exact hl

theorem Closed.expireAll (h : Closed k paid deposit ps s) (hi : Inv cr ctx s) (ids : List ℕ) :
    Closed k paid deposit ps (s.expireAll cr ctx ids) := by
  refine ChainState.expireAll_induct ?_ hi h ids
  intro t c hi hc hs h
  exact (h.settle hi hc 0 (fun _ : true = true => hs)).of_eq rfl rfl

/-- **One step** leaves a closed account closed. -/
theorem Outcome.closed_account (ho : Outcome cr w a w') (hi : Inv cr w.ctx w.chain)
    (h : Closed k paid deposit ps w.chain) : Closed k paid deposit ps w'.chain := by
  cases ho with
  | rejected m => exact h
  | unsent src dst coin => exact h
  | provider m s' hdel hm hq hd =>
    obtain ⟨qs, hj, hqs⟩ := hq.journal
    refine h.of_eq hq.contracts ?_
    rw [ChainState.postings, hj, List.filter_append, ← ChainState.postings]
    have hnil : qs.filter (fun p => p.purpose.contractId? = some k) = [] := by
      rw [List.filter_eq_nil_iff]
      intro p hp
      simp [hqs p hp, Purpose.contractId?]
    rw [hnil, List.append_nil]
  | opened msg signer service c hsvc hv hc ho =>
    obtain ⟨hp, d, hl, hs, h1, h2⟩ := h
    have hk : k ≠ c.id := by
      rintro rfl
      rw [ho.id_eq, hi.lookup_next] at hl
      cases hl
    refine ⟨?_, d, ?_, hs, h1, h2⟩
    · change (w.chain.charged signer c).postings k = ps
      rw [ChainState.charged, ChainState.postings_sent _ _ _ _ (by simp [Purpose.contractId?, Ne.symm hk]),
        ChainState.postings_sent _ _ _ _ (by simp [Purpose.contractId?])]
      exact hp
    · rw [ChainState.opened_lookup, if_neg hk]
      exact hl
  | closed msg c t hd hc hid hopen hby hs ht =>
    have hst := hi.stored _ c hc
    have hrel : Closed k paid deposit ps (w.chain.relisted w.ctx c) := by
      refine h.of_eq (ChainState.relisted_contracts c) ?_
      unfold ChainState.relisted
      split <;> rfl
    have hc' := ChainState.relisted_lookup w.ctx hc
    have hset := hrel.settle (hi.relisted c) hc' 0 hs
    rw [hst.wf.raiseNonce_zero, ← ht] at hset
    exact hset.of_eq rfl rfl
  | claimed msg c hc hid hn hset hf =>
    refine h.settle hi hc msg.nonce ?_
    intro hf
    cases hf
  | sent src dst coin h0 hle =>
    exact h.of_eq (ChainState.sent_contracts ..)
      (ChainState.postings_sent _ _ _ _ (by simp [Purpose.contractId?]))
  | ended ctx' hctx => exact h.expireAll hi _

/-- **The life of a deposit.**  At every moment of every run, what a contract was
opened with is what the provider, the reserve and the client have received for it
plus what remains; and from its final settlement on no run moves a coin for it or
changes what it records as paid and deposited. -/
theorem deposit_conserved_and_final (hg : Genesis w) {actions : List Action}
    (h : Runs.run (step cr) w actions = some w') {c : Contract}
    (hc : w'.chain.contracts.lookup k = some c) :
    (∃ t e, (t, .openContract e) ∈ w'.chain.events ∧ e.contractId = k ∧
      w'.chain.moved (.deposit k) = e.deposit ∧
      e.deposit = w'.chain.moved (.income k) + w'.chain.moved (.tax k) +
        w'.chain.moved (.refund k) + (c.deposit - c.paid)) ∧
    (∀ p ∈ w'.chain.postings k, p.Addressed cr c) ∧
    (c.settlementHeight ≠ 0 → ∀ later w'', Runs.run (step cr) w' later = some w'' →
      w''.chain.postings k = w'.chain.postings k ∧
        ∃ c', w''.chain.contracts.lookup k = some c' ∧ c'.paid = c.paid ∧
          c'.deposit = c.deposit) := by
  have hi := reachable_inv hg h
  have hb := run_booked hg h
  refine ⟨hb.conserved k c hc, hb.addressed k c hc, ?_⟩
  intro hs later w'' hl
  have hrun := Runs.run_induct
    (P := fun w => Inv cr w.ctx w.chain ∧
      Closed k c.paid c.deposit (w'.chain.postings k) w.chain)
    (fun w a w' hw hs =>
      have ho := step_outcome hw.1 hs
      ⟨ho.inv hw.1, ho.closed_account hw.1 hw.2⟩) ⟨hi, rfl, c, hc, hs, rfl, rfl⟩ hl
  obtain ⟨hp, c', hc', -, h1, h2⟩ := hrun.2
  exact ⟨hp, c', hc', h1, h2⟩

/-- The pay-as-you-go contract of the sample run, once it is settled. -/
theorem deposit_conserved_at_lifetimes : ∃ w' c,
    Runs.run (step Sample.crypto) Sample.genesis (Sample.lifetimes ++ [.endBlock]) = some w' ∧
    w'.chain.contracts.lookup 2 = some c ∧ c.settlementHeight ≠ 0 ∧
    ∃ t e, (t, .openContract e) ∈ w'.chain.events ∧ e.contractId = 2 ∧
      e.deposit = w'.chain.moved (.income 2) + w'.chain.moved (.tax 2) +
        w'.chain.moved (.refund 2) + (c.deposit - c.paid) := by
  obtain ⟨w, w', c, hw, hw', hc, -, -, hs, -⟩ := Sample.lifetimes_run
  have hrun : Runs.run (step Sample.crypto) Sample.genesis (Sample.lifetimes ++ [.endBlock]) =
      some w' := Runs.run_append.mpr ⟨w, hw, Runs.run_cons.mpr ⟨w', hw', rfl⟩⟩
  obtain ⟨⟨t, e, hmem, hid, -, hsum⟩, -⟩ := deposit_conserved_and_final Sample.genesis_ok hrun hc
  exact ⟨w', c, hrun, hc, by rw [hs]; decide, t, e, hmem, hid, hsum⟩

end Arkeo
