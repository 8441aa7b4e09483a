import Arkeo.Expiry
import Arkeo.History
import Arkeo.Payment

/-! # No contract is settled early

The end blocker settles what the expiration set of the height lists and asks no
questions.  What may be listed where is an invariant of the whole run
(`Scheduled`): a contract is listed at the end of its settlement period, and a
pay-as-you-go contract also at the end of the settlement period that starts when
its client closes it.  So no contract is finally settled before its time
(`no_premature_settlement`), and up to then the provider can claim what it is
owed.
-/
namespace Arkeo
open Exec

variable {cr : Crypto} {ctx : Context} {s : ChainState} {w v v' : World} {a : Action}
  {actions : List Action} {k : ℕ} {c c' : Contract}

/-- The client of contract `k` closed it in a block of this height: at that point
of the run a close message signed by the client was accepted. -/
def ClosedAt (cr : Crypto) (w : World) (actions : List Action) (k : ℕ) (height : Int64) : Prop :=
  ∃ taken msg rest v c, actions = taken ++ .msg (.closeContract msg) :: rest ∧
    Runs.run (step cr) w taken = some v ∧ v.ctx.blockHeight = height ∧ msg.contractId = k ∧
    (deliver cr v.ctx (.closeContract msg) v.chain).isSome ∧
    v.chain.contracts.lookup k = some c ∧ c.ClosedBy cr msg

theorem ClosedAt.append {height : Int64} (h : ClosedAt cr w actions k height)
    (more : List Action) : ClosedAt cr w (actions ++ more) k height := by
  obtain ⟨taken, msg, rest, v, c, rfl, hrun⟩ := h
  refine ⟨taken, msg, rest ++ more, v, c, ?_, hrun⟩
  rw [List.append_assoc]
  rfl

/-- The contract may be settled at this height: its settlement period is over, or
its client closed it and, for a pay-as-you-go contract, the settlement duration
has passed since. -/
def MayEnd (cr : Crypto) (w : World) (actions : List Action) (k : ℕ) (c : Contract)
    (height : Int64) : Prop :=
  c.settlementPeriodEnd ≤ height ∨ ∃ closed, ClosedAt cr w actions k closed ∧ closed ≤ height ∧
    (c.isSubscription = true → height = closed) ∧
    (c.isPayAsYouGo = true → closed.toInt + c.settlementDuration.toInt ≤ height.toInt)

theorem MayEnd.append {height : Int64} (h : MayEnd cr w actions k c height)
    (more : List Action) : MayEnd cr w (actions ++ more) k c height := by
  rcases h with h | ⟨closed, hc, h⟩
  · exact .inl h
  · exact .inr ⟨closed, hc.append more, h⟩

theorem MayEnd.of_later {lo hi : ℤ} {height : Int64} (h : MayEnd cr w actions k c height)
    (hl : c.Later lo hi c') : MayEnd cr w actions k c' height := by
  unfold MayEnd
  rw [hl.settlementPeriodEnd_eq, hl.isSubscription_eq, hl.isPayAsYouGo_eq,
    hl.settlementDuration_eq]
  exact h

/-- The invariant: what is listed may end at the height it is listed for, and what
is settled might end when it was. -/
structure Scheduled (cr : Crypto) (w : World) (actions : List Action) (v : World) : Prop where
  inv : Inv cr v.ctx v.chain
  listed : ∀ t, ∀ k ∈ v.chain.listedAt t, ∃ c, v.chain.contracts.lookup k = some c ∧
    MayEnd cr w actions k c t
  settled : ∀ k c, v.chain.contracts.lookup k = some c → c.settlementHeight ≠ 0 →
    MayEnd cr w actions k c c.settlementHeight

/-! ## The loop of the end blocker -/

/-- What is not listed is left alone. -/
theorem expireAll_lookup_of_not_mem (hi : Inv cr ctx s) {ids : List ℕ} (hk : k ∉ ids) :
    (s.expireAll cr ctx ids).contracts.lookup k = s.contracts.lookup k := by
  induction ids generalizing s with
  | nil => rfl
  | cons j ids ih =>
    rw [List.mem_cons, not_or] at hk
    refine (ih (hi.expire j) hk.2).trans ?_
    cases hc : s.contracts.lookup j with
    | none => rw [ChainState.expire_of_none hc]
    | some d =>
      by_cases hs : d.settlementHeight = 0
      · rw [ChainState.expire_lookup hc hs (hi.stored j d hc).id_eq, if_neg hk.1]
      · rw [ChainState.expire_of_settled hc hs]

/-- The loop lists nothing. -/
theorem mem_listedAt_expireAll (hi : Inv cr ctx s) {ids : List ℕ} {t : Int64}
    (hk : k ∈ (s.expireAll cr ctx ids).listedAt t) : k ∈ s.listedAt t := by
  revert hk
  refine ChainState.expireAll_induct (P := fun s' => k ∈ s'.listedAt t → k ∈ s.listedAt t) ?_ hi id
    ids
  intro s' c _ _ _ ih hk
  rw [ChainState.listedAt_unlist] at hk
  split at hk
  · cases hk
  · apply ih
    rw [ChainState.listedAt, ChainState.settle_expirationSets] at hk
    exact hk

/-! ## Closing -/

/-- What is listed after a contract is listed anew. -/
theorem of_mem_listedAt_relisted {t : Int64} (hk : k ∈ (s.relisted ctx c).listedAt t) :
    k ∈ s.listedAt t ∨
      c.isPayAsYouGo = true ∧ k = c.id ∧ t = ctx.blockHeight + c.settlementDuration := by
  have hun : ∀ t', k ∈ (s.unlist c.expiration).listedAt t' → k ∈ s.listedAt t' := by
    intro t' h
    rw [ChainState.listedAt_unlist] at h
    split at h
    · cases h
    · exact h
  unfold ChainState.relisted at hk
  by_cases hp : c.isPayAsYouGo = true
  · rw [if_pos hp, ChainState.listedAt_list] at hk
    by_cases ht : t = ctx.blockHeight + c.settlementDuration
    · rw [if_pos ht, List.mem_append] at hk
      rcases hk with h | h
      · rw [← ht] at h
        exact .inl (hun t h)
      · exact .inr ⟨hp, List.mem_singleton.mp h, ht⟩
    · rw [if_neg ht] at hk
      exact .inl (hun t hk)
  · rw [if_neg hp] at hk
    exact .inl hk

/-- A contract that is being closed may end when it is listed anew. -/
theorem mayEnd_relisted (hw : c.Wf cr) (hp : c.isPayAsYouGo = true)
    (ho : c.isOpen ctx.blockHeight = true) (hcl : ClosedAt cr w actions k ctx.blockHeight) :
    MayEnd cr w actions k c (ctx.blockHeight + c.settlementDuration) := by
  have hexp : ctx.blockHeight.toInt ≤ c.expiration.toInt := by
    simp only [Contract.isOpen, Bool.and_eq_true, Bool.not_eq_true', decide_eq_false_iff_not,
      Int64.lt_iff_toInt_lt, not_lt] at ho
    exact ho.1.2
  have hend := hw.settlementPeriodEnd_toInt
  have hfit := Int64.toInt_lt c.settlementPeriodEnd
  have hpos := ctx.pos
  have hsd := hw.settlementDuration_nonneg
  rw [if_pos hp, ← hw.expiration_toInt] at hend
  have hnew : (ctx.blockHeight + c.settlementDuration).toInt =
      ctx.blockHeight.toInt + c.settlementDuration.toInt := toInt_add_of_fits (by omega) (by omega)
  refine .inr ⟨ctx.blockHeight, hcl, ?_, ?_, fun _ => hnew.ge⟩
  · rw [Int64.le_iff_toInt_le]
    omega
  · intro hsub
    simp only [Contract.isPayAsYouGo, Contract.isSubscription, decide_eq_true_eq] at hp hsub
    rw [hp] at hsub
    cases hsub

/-- What a step that settles nothing and lists nothing does to the schedule. -/
theorem Scheduled.of_eq (h : Scheduled cr w actions v) (hi : Inv cr v'.ctx v'.chain)
    (hc : v'.chain.contracts = v.chain.contracts)
    (hl : ∀ t, v'.chain.listedAt t = v.chain.listedAt t) :
    Scheduled cr w (actions ++ [a]) v' := by
  refine ⟨hi, ?_, ?_⟩
  · intro t k hk
    rw [hl] at hk
    obtain ⟨c, hk', hm⟩ := h.listed t k hk
    exact ⟨c, by rw [hc]; exact hk', hm.append _⟩
  · intro k c hk hs
    rw [hc] at hk
    exact (h.settled k c hk hs).append _

/-- **One step** keeps the schedule. -/
theorem Scheduled.step (h : Scheduled cr w actions v) (hrun : Runs.run (step cr) w actions = some v)
    (hstep : step cr v a = some v') : Scheduled cr w (actions ++ [a]) v' := by
  have ho := step_outcome h.inv hstep
  have hi := ho.inv h.inv
  have hlater := ho.later h.inv
  cases ho with
  | rejected m => exact h.of_eq hi rfl fun _ => rfl
  | unsent src dst coin => exact h.of_eq hi rfl fun _ => rfl
  | provider m s' hdel hm hq hd =>
    exact h.of_eq hi hq.contracts fun t => by simp only [ChainState.listedAt, hq.expirationSets]
  | sent src dst coin h0 hle =>
    exact h.of_eq hi (ChainState.sent_contracts ..) fun t => by
      simp only [ChainState.listedAt, ChainState.sent_expirationSets]
  | opened msg signer service c hsvc hv hc ho =>
    refine ⟨hi, ?_, ?_⟩
    · intro t k hk
      simp only [ChainState.opened_listedAt] at hk
      have hmem : k ∈ v.chain.listedAt t ∨ k = c.id ∧ t = c.settlementPeriodEnd := by
        split at hk
        · rename_i ht
          rcases List.mem_append.mp hk with hk | hk
          · exact .inl hk
          · exact .inr ⟨List.mem_singleton.mp hk, ht⟩
        · exact .inl hk
      rcases hmem with hk | ⟨rfl, rfl⟩
      · obtain ⟨d, hd, hm⟩ := h.listed t k hk
        obtain ⟨d', hd', hdd⟩ := hlater.kept k d hd
        exact ⟨d', hd', (hm.append _).of_later hdd⟩
      · refine ⟨c, ?_, .inl (Int64.le_refl _)⟩
        simp only [ChainState.opened_lookup, if_pos]
    · intro k d hk hs
      simp only [ChainState.opened_lookup] at hk
      split at hk
      · obtain rfl := Option.some.inj hk
        exact absurd ho.settlementHeight_eq hs
      · exact (h.settled k d hk hs).append _
  | closed msg c t hd hc hid hopen hby hs ht =>
    have hw := (h.inv.stored _ c hc).wf
    have hcl : ClosedAt cr w (actions ++ [.msg (.closeContract msg)]) c.id v.ctx.blockHeight :=
      ⟨actions, msg, [], v, c, rfl, hrun, rfl, hid.symm, hd, hc, hby⟩
    refine ⟨hi, ?_, ?_⟩
    · intro t' k hk
      have hk' : k ∈ (v.chain.relisted v.ctx c).listedAt t' := by
        simp only [ht, ChainState.listedAt, ChainState.settle_expirationSets] at hk
        exact hk
      rcases of_mem_listedAt_relisted hk' with hk | ⟨hp, rfl, rfl⟩
      · obtain ⟨d, hd, hm⟩ := h.listed t' k hk
        obtain ⟨d', hd', hdd⟩ := hlater.kept k d hd
        exact ⟨d', hd', (hm.append _).of_later hdd⟩
      · obtain ⟨c', hc', hcc⟩ := hlater.kept c.id c hc
        exact ⟨c', hc', (mayEnd_relisted hw hp hopen hcl).of_later hcc⟩
    · intro k d hk hs'
      simp only [ht, ChainState.settle_lookup] at hk
      split at hk
      · rename_i hkc
        obtain rfl := Option.some.inj hk
        cases hsub : c.isSubscription with
        | true =>
          -- a subscription is settled at once
          rw [hkc]
          refine .inr ⟨v.ctx.blockHeight, hcl, ?_, ?_, ?_⟩
          · simp [Contract.settled]
          · simp [Contract.settled]
          · intro hp
            have hp : c.isPayAsYouGo = true := hp
            simp only [Contract.isPayAsYouGo, Contract.isSubscription, decide_eq_true_eq] at hp hsub
            rw [hp] at hsub
            cases hsub
        | false =>
          rw [hsub] at hs'
          have h0 : c.settlementHeight ≠ 0 := hs'
          rw [hkc]
          exact (h.settled c.id c hc h0).append _
      · rw [ChainState.relisted_contracts] at hk
        exact (h.settled k d hk hs').append _
  | claimed msg c hc hid hn hset hf =>
    refine ⟨hi, ?_, ?_⟩
    · intro t k hk
      simp only [ChainState.listedAt, ChainState.settle_expirationSets] at hk
      obtain ⟨d, hd, hm⟩ := h.listed t k hk
      obtain ⟨d', hd', hdd⟩ := hlater.kept k d hd
      exact ⟨d', hd', (hm.append _).of_later hdd⟩
    · intro k d hk hs
      simp only [ChainState.settle_lookup] at hk
      split at hk
      · rename_i hkc
        obtain rfl := Option.some.inj hk
        rw [hkc]
        exact (h.settled c.id c hc hs).append _
      · exact (h.settled k d hk hs).append _
  | ended ctx' hctx =>
    refine ⟨hi, ?_, ?_⟩
    · intro t k hk
      obtain ⟨d, hd, hm⟩ := h.listed t k (mem_listedAt_expireAll h.inv hk)
      obtain ⟨d', hd', hdd⟩ := hlater.kept k d hd
      exact ⟨d', hd', (hm.append _).of_later hdd⟩
    · intro k d hk hs
      rcases hlater.origin k d hk with ⟨c, hc, hcd⟩ | ⟨-, hnew⟩
      · rcases hcd.settled with he | ⟨h0, hlo, hhi⟩
        · rw [he] at hs ⊢
          exact ((h.settled k c hc hs).append _).of_later hcd
        · -- the contract was settled now, so it was listed for now
          have hmem : k ∈ v.chain.listedAt v.ctx.blockHeight := by
            by_contra hnot
            simp only [expireAll_lookup_of_not_mem h.inv hnot, hc] at hk
            obtain rfl := Option.some.inj hk
            exact hs h0
          have hnow : d.settlementHeight = v.ctx.blockHeight := Int64.toInt_inj.mp (by omega)
          obtain ⟨c', hc', hm⟩ := h.listed _ k hmem
          rw [hc] at hc'
          obtain rfl := Option.some.inj hc'
          rw [hnow]
          exact (hm.append _).of_later hcd
      · obtain ⟨_, _, _, hmsg, -⟩ := hnew
        cases hmsg

theorem Genesis.scheduled (hg : Genesis w) : Scheduled cr w [] w := by
  refine ⟨hg.inv, ?_, ?_⟩
  · intro t k hk
    rw [ChainState.listedAt, hg.expirationSets] at hk
    cases hk
  · intro k c hc
    rw [hg.contracts] at hc
    cases hc

theorem reachable_scheduled (hg : Genesis w) (h : Runs.run (step cr) w actions = some v) :
    Scheduled cr w actions v :=
  Runs.run_induct_history (P := fun l v => Scheduled cr w l v) hg.scheduled
    (fun _ _ _ _ hrun hs hstep => hs.step hrun hstep) h

/-! ## Claiming in time -/

/-- A claim that the spender of the contract signed. -/
def MsgClaimContractIncome.SignedFor (cr : Crypto) (ctx : Context) (msg : MsgClaimContractIncome)
    (c : Contract) : Prop :=
  ∃ pk, cr.getPubKeyFromBech32 c.getSpender = some pk ∧
    verifyClaim cr pk msg.contractId msg.nonce ctx.chainID msg.signature = true

/-- The products of a claim fit when the rate is below `2 ^ 190`. -/
theorem Stored.claim_fits {next : ℕ} (hst : Stored cr ctx next k c) (nonce : Int64)
    (hr : c.rate.amount < 2 ^ 190) : (c.raiseNonce nonce).DueFits ctx := by
  refine (Inv.wf_raiseNonce hst.wf nonce).dueFits hst.height_le ?_
  intro _
  have h0 := (Inv.wf_raiseNonce hst.wf nonce).nonce_nonneg
  have hn := Int64.toInt_lt (c.raiseNonce nonce).nonce
  have hle : c.rate.amount * (c.raiseNonce nonce).nonce.toInt ≤ 2 ^ 190 * 2 ^ 63 :=
    Int.mul_le_mul hr.le hn.le h0 (by decide)
  exact lt_of_le_of_lt hle (by decide)

/-- **A claim in time is accepted and paid**: while the settlement period is not over. -/
theorem claim_in_time (hi : Inv cr ctx s) (he : Earned ctx s) (hc : s.contracts.lookup k = some c)
    (hend : ctx.blockHeight < c.settlementPeriodEnd) (hr : c.rate.amount < 2 ^ 190)
    {msg : MsgClaimContractIncome} (hid : msg.contractId = k) (hn : c.nonce < msg.nonce)
    (hsig : msg.SignedFor cr ctx c) :
    ∃ s' c', deliver cr ctx (.claimContractIncome msg) s = some s' ∧
      s'.contracts.lookup k = some c' ∧ c'.nonce = msg.nonce ∧
      (c.isPayAsYouGo = true → c'.paid = min (c.rate.amount * msg.nonce.toInt) c.deposit) := by
  subst hid
  have hst := hi.stored _ c hc
  have hc' : s.contracts.lookup c.id = some c := by rw [hst.id_eq]; exact hc
  have hopen : c.isSettled ctx.blockHeight = false := by
    unfold Contract.isSettled
    rw [Bool.and_eq_false_iff]
    right
    rw [decide_eq_false_iff_not, Int64.not_le]
    exact hend
  have hfits := hst.claim_fits msg.nonce hr
  have hacc := claimContractIncome_accepts hi hc hn hopen hfits hsig
  have hpos : 0 < msg.nonce.toInt := by
    have := hst.wf.nonce_nonneg
    rw [Int64.lt_iff_toInt_lt] at hn
    omega
  have hlen : msg.signature.length = 64 := by
    obtain ⟨pk, -, hv⟩ := hsig
    unfold verifyClaim at hv
    simp only [Bool.and_eq_true, decide_eq_true_eq] at hv
    exact hv.1
  have hbasic : msg.validateBasic s = .ok () s := by
    unfold MsgClaimContractIncome.validateBasic
    rw [failIf_bind_ok, failIf_ok]
    refine ⟨by simp [hlen], ?_, rfl⟩
    rw [decide_eq_false_iff_not, Int64.le_iff_toInt_le, Int64.toInt_zero]
    omega
  have hraised : (c.raiseNonce msg.nonce).nonce = msg.nonce := if_pos hn
  refine ⟨_, (c.raiseNonce msg.nonce).settled ctx false,
    committed_some.mpr ⟨(), bind_ok.mpr ⟨(), s, hbasic, hacc⟩⟩, ?_, hraised, ?_⟩
  · rw [ChainState.settle_lookup]
    exact if_pos hst.id_eq.symm
  · intro hp
    have ht : c.type = .payAsYouGo := by simpa [Contract.isPayAsYouGo] using hp
    have hpaid := (he.settle hi hc' msg.nonce false).payAsYouGo msg.contractId
      ((c.raiseNonce msg.nonce).settled ctx false)
      (by rw [ChainState.settle_lookup]; exact if_pos hst.id_eq.symm) ht
    rw [hpaid, show ((c.raiseNonce msg.nonce).settled ctx false).nonce = msg.nonce from hraised,
      min_comm]
    rfl

/-- **No contract is settled early.**  A contract that is finally settled was
settled when it might end: its settlement period was over, or its client had
closed it (now, for a subscription, and a settlement duration ago for a
pay-as-you-go contract).  In every earlier block before the end of the settlement
period a signed claim with a higher nonce is accepted, and it brings what a
pay-as-you-go contract has paid up to the calls claimed. -/
theorem no_premature_settlement (hg : Genesis w) (h : Runs.run (step cr) w actions = some v)
    (hc : v.chain.contracts.lookup k = some c) (hs : c.settlementHeight ≠ 0) :
    MayEnd cr w actions k c c.settlementHeight ∧
      ∀ taken rest u d msg, actions = taken ++ rest → Runs.run (step cr) w taken = some u →
        u.chain.contracts.lookup k = some d → u.ctx.blockHeight < c.settlementHeight →
        u.ctx.blockHeight < c.settlementPeriodEnd → d.rate.amount < 2 ^ 190 →
        msg.contractId = k → d.nonce < msg.nonce → msg.SignedFor cr u.ctx d →
        ∃ s' d', deliver cr u.ctx (.claimContractIncome msg) u.chain = some s' ∧
          s'.contracts.lookup k = some d' ∧ d'.nonce = msg.nonce ∧
          (d.isPayAsYouGo = true → d'.paid = min (d.rate.amount * msg.nonce.toInt) d.deposit) := by
  refine ⟨(reachable_scheduled hg h).settled k c hc hs, ?_⟩
  rintro taken rest u d msg rfl hu hd - hend hr hid hn hsig
  obtain ⟨u', hu', hrest⟩ := Runs.run_append.mp h
  rw [hu] at hu'
  obtain rfl := Option.some.inj hu'
  have hi := reachable_inv hg hu
  obtain ⟨c', hc', hlater⟩ := run_later hi hrest hd
  rw [hc] at hc'
  obtain rfl := Option.some.inj hc'
  rw [hlater.settlementPeriodEnd_eq] at hend
  exact claim_in_time hi (reachable_earned hg hu).1 hd hend hr hid hn hsig

/-- The pay-as-you-go contract of the sample run is settled when it may end. -/
theorem no_premature_settlement_at_lifetimes : ∃ w c,
    Runs.run (step Sample.crypto) Sample.genesis (Sample.lifetimes ++ [.endBlock]) = some w ∧
    w.chain.contracts.lookup 2 = some c ∧ c.settlementHeight = 3 ∧
    MayEnd Sample.crypto Sample.genesis (Sample.lifetimes ++ [.endBlock]) 2 c 3 := by
  obtain ⟨v, w, c, hv, hw, hc, -, -, hset, -⟩ := Sample.lifetimes_run
  have hrun : Runs.run (step Sample.crypto) Sample.genesis (Sample.lifetimes ++ [.endBlock]) =
      some w := Runs.run_append.mpr ⟨v, hv, Runs.run_cons.mpr ⟨w, hw, rfl⟩⟩
  have hend := (no_premature_settlement Sample.genesis_ok hrun hc (by rw [hset]; decide)).1
  rw [hset] at hend
  exact ⟨w, c, hrun, hc, hset, hend⟩

end Arkeo
