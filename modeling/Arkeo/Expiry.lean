import Arkeo.Reachable

/-! # Expired contracts are settled

The end blocker finds the contracts it has to settle through the expiration set of
the height.  A set is shared by all contracts that end at its height, and it is
deleted as a whole: when a pay-as-you-go contract is closed, and when the end
blocker settles one before its expiration, the set at that contract's
`expiration` goes, with every other contract in it.

A step that leaves no unsettled contract without a listing in time (`Keeps`) keeps
every contract listed at a height it can still be settled at; in runs of such
steps every expired contract is settled.  The deletion that orphans a contract is
real: `subscription_orphaned`.
-/
namespace Arkeo
open Exec

variable {cr : Crypto} {ctx : Context} {s : ChainState} {w w' : World} {a : Action}

/-- The contracts that are not finally settled. -/
def ChainState.unsettled (s : ChainState) : List Contract :=
  (s.contracts.entries.map Sigma.snd).filter fun c => c.settlementHeight = 0

/-- The heights whose sets the end blocker deletes: the expirations of the listed
contracts that it settles. -/
def ChainState.settledExpirations (s : ChainState) (ids : List ℕ) : List Int64 :=
  ids.filterMap fun k => (s.contracts.lookup k).bind fun c =>
    if c.settlementHeight = 0 then some c.expiration else none

/-- The heights whose expiration sets a step deletes. -/
def deletedHeights (cr : Crypto) (w : World) : Action → List Int64
  | .msg (.closeContract msg) =>
      if (deliver cr w.ctx (.closeContract msg) w.chain).isSome then
        ((w.chain.contracts.lookup msg.contractId).bind fun c =>
          if c.isPayAsYouGo then some c.expiration else none).toList
      else []
  | .endBlock => w.chain.settledExpirations (w.chain.listedAt w.ctx.blockHeight)
  | _ => []

/-- The contracts a step itself lists anew or settles. -/
def handled (w : World) : Action → List ℕ
  | .msg (.closeContract msg) => [msg.contractId]
  | .endBlock => w.chain.listedAt w.ctx.blockHeight
  | _ => []

/-- **The guard.**  An unsettled contract that is listed in a set the step deletes
is either the one the step handles, or it is also listed in a set that stays, at a
height from now to the end of its settlement period. -/
def Keeps (cr : Crypto) (w : World) (a : Action) : Prop :=
  ∀ c ∈ w.chain.unsettled, c.id ∉ handled w a →
    (∃ t ∈ deletedHeights cr w a, c.id ∈ w.chain.listedAt t) →
      ∃ t ∈ w.chain.expirationSets.keys, t ∉ deletedHeights cr w a ∧
        w.ctx.blockHeight ≤ t ∧ t ≤ c.settlementPeriodEnd ∧ c.id ∈ w.chain.listedAt t

instance : ∀ w a, Decidable (Keeps cr w a) := fun _ _ =>
  inferInstanceAs (Decidable (∀ _ ∈ _, _ → _ → _))

theorem Keeps.of_deletes_none {w : World} {a : Action} (h : deletedHeights cr w a = []) :
    Keeps cr w a := by
  rintro c - - ⟨t, ht, -⟩
  rw [h] at ht
  cases ht

theorem ChainState.mem_unsettled (hi : Inv cr ctx s) {c : Contract} :
    c ∈ s.unsettled ↔ s.contracts.lookup c.id = some c ∧ c.settlementHeight = 0 := by
  unfold unsettled
  rw [List.mem_filter, decide_eq_true_eq]
  refine and_congr_left fun _ => ?_
  rw [List.mem_map]
  constructor
  · rintro ⟨⟨k, c'⟩, he, rfl⟩
    have hl := AList.mem_entries.mp he
    exact (hi.stored k c' hl).id_eq ▸ hl
  · intro h
    exact ⟨⟨c.id, c⟩, AList.mem_entries.mpr h, rfl⟩

/-- The contract is listed at a height at which it can still be settled in time. -/
def ListedInTime (ctx : Context) (s : ChainState) (c : Contract) : Prop :=
  ∃ t, ctx.blockHeight.toInt ≤ t.toInt ∧ t.toInt ≤ c.settlementPeriodEnd.toInt ∧
    c.id ∈ s.listedAt t

/-- Every unsettled contract is listed in time. -/
def AllListed (ctx : Context) (s : ChainState) : Prop :=
  ∀ k c, s.contracts.lookup k = some c → c.settlementHeight = 0 → ListedInTime ctx s c

/-! ## The loop of the end blocker -/

theorem ChainState.expire_lookup {k : ℕ} {c : Contract} (hc : s.contracts.lookup k = some c)
    (hs : c.settlementHeight = 0) (hk : c.id = k) (k' : ℕ) :
    (s.expire cr ctx k).contracts.lookup k' =
      if k' = k then some (c.settled ctx true) else s.contracts.lookup k' := by
  rw [expire_of_unsettled hc hs]
  change (s.settle cr ctx c true).contracts.lookup k' = _
  rw [settle_lookup, hk]

/-- A pass changes no other record. -/
theorem expire_lookup_of_ne (hi : Inv cr ctx s) {k k' : ℕ} (hne : k' ≠ k) :
    (s.expire cr ctx k).contracts.lookup k' = s.contracts.lookup k' := by
  cases hl : s.contracts.lookup k with
  | none => rw [ChainState.expire_of_none hl]
  | some c =>
    by_cases hs : c.settlementHeight = 0
    · rw [ChainState.expire_lookup hl hs (hi.stored k c hl).id_eq, if_neg hne]
    · rw [ChainState.expire_of_settled hl hs]

theorem settled_settlementHeight_ne (c : Contract) : (c.settled ctx true).settlementHeight ≠ 0 := by
  intro h
  have hpos := ctx.pos
  have h' : ctx.blockHeight = 0 := h
  rw [h'] at hpos
  exact absurd hpos (by decide)

/-- What is unsettled after a pass is another contract, and is as before. -/
theorem lookup_expire (hi : Inv cr ctx s) (k : ℕ) {k' : ℕ} {c : Contract}
    (h : (s.expire cr ctx k).contracts.lookup k' = some c) (hc : c.settlementHeight = 0) :
    k' ≠ k ∧ s.contracts.lookup k' = some c := by
  cases hl : s.contracts.lookup k with
  | none =>
    rw [ChainState.expire_of_none hl] at h
    refine ⟨?_, h⟩
    rintro rfl
    rw [hl] at h
    cases h
  | some d =>
    by_cases hs : d.settlementHeight = 0
    · rw [ChainState.expire_lookup hl hs (hi.stored k d hl).id_eq] at h
      by_cases hk : k' = k
      · rw [if_pos hk] at h
        cases h
        exact absurd hc (settled_settlementHeight_ne d)
      · rw [if_neg hk] at h
        exact ⟨hk, h⟩
    · rw [ChainState.expire_of_settled hl hs] at h
      refine ⟨?_, h⟩
      rintro rfl
      rw [hl] at h
      cases h
      exact hs hc

/-- A contract that is unsettled after the loop was not listed, and is as before. -/
theorem lookup_expireAll (hi : Inv cr ctx s) (ids : List ℕ) {k : ℕ} {c : Contract}
    (h : (s.expireAll cr ctx ids).contracts.lookup k = some c) (hc : c.settlementHeight = 0) :
    k ∉ ids ∧ s.contracts.lookup k = some c := by
  induction ids generalizing s with
  | nil => exact ⟨List.not_mem_nil, h⟩
  | cons j ids ih =>
    obtain ⟨hnot, hl⟩ := ih (hi.expire j) h
    obtain ⟨hne, hl⟩ := lookup_expire hi j hl hc
    refine ⟨fun hmem => ?_, hl⟩
    rcases List.mem_cons.mp hmem with hj | hj
    · exact hne hj
    · exact hnot hj

theorem ChainState.mem_settledExpirations {ids : List ℕ} {t : Int64} :
    t ∈ s.settledExpirations ids ↔ ∃ k ∈ ids, ∃ c, s.contracts.lookup k = some c ∧
      c.settlementHeight = 0 ∧ c.expiration = t := by
  unfold settledExpirations
  simp only [List.mem_filterMap, Option.bind_eq_some_iff, Option.ite_none_right_eq_some,
    Option.some.injEq]

/-- A pass deletes the set at the expiration of a contract that it settles. -/
theorem ChainState.expire_expirationSets (k : ℕ) (t : Int64) :
    (s.expire cr ctx k).expirationSets.lookup t =
      if t ∈ s.settledExpirations [k] then none else s.expirationSets.lookup t := by
  cases hl : s.contracts.lookup k with
  | none =>
    rw [expire_of_none hl, if_neg]
    intro h
    obtain ⟨j, hj, c, hc, -⟩ := mem_settledExpirations.mp h
    rw [List.mem_singleton.mp hj, hl] at hc
    cases hc
  | some c =>
    by_cases hs : c.settlementHeight = 0
    · have hmem : t ∈ s.settledExpirations [k] ↔ c.expiration = t := by
        rw [mem_settledExpirations]
        constructor
        · rintro ⟨j, hj, c', hc', -, he⟩
          rw [List.mem_singleton.mp hj, hl] at hc'
          obtain rfl := Option.some.inj hc'
          exact he
        · exact fun he => ⟨k, List.mem_singleton_self k, c, hl, hs, he⟩
      rw [expire_of_unsettled hl hs, unlist, settle_expirationSets]
      by_cases he : c.expiration = t
      · rw [if_pos (hmem.mpr he), he, AList.lookup_erase]
      · rw [if_neg (mt hmem.mp he), AList.lookup_erase_ne (Ne.symm he)]
    · rw [expire_of_settled hl hs, if_neg]
      intro h
      obtain ⟨j, hj, c', hc', h0, -⟩ := mem_settledExpirations.mp h
      rw [List.mem_singleton.mp hj, hl] at hc'
      obtain rfl := Option.some.inj hc'
      exact hs h0

/-- **The sets after the loop**: only those of settled expirations are gone. -/
theorem expireAll_expirationSets (hi : Inv cr ctx s) (ids : List ℕ) (t : Int64) :
    (s.expireAll cr ctx ids).expirationSets.lookup t =
      if t ∈ s.settledExpirations ids then none else s.expirationSets.lookup t := by
  induction ids generalizing s with
  | nil => rfl
  | cons k ids ih =>
    -- what the rest of the loop settles was unsettled before the first pass
    have hrest : t ∈ (s.expire cr ctx k).settledExpirations ids → t ∈ s.settledExpirations ids := by
      intro h
      obtain ⟨j, hj, c, hc, h0, he⟩ := ChainState.mem_settledExpirations.mp h
      obtain ⟨-, hc⟩ := lookup_expire hi k hc h0
      exact ChainState.mem_settledExpirations.mpr ⟨j, hj, c, hc, h0, he⟩
    have hcons : t ∈ s.settledExpirations (k :: ids) ↔
        t ∈ s.settledExpirations [k] ∨ t ∈ (s.expire cr ctx k).settledExpirations ids := by
      constructor
      · intro h
        obtain ⟨j, hj, c, hc, h0, he⟩ := ChainState.mem_settledExpirations.mp h
        by_cases hjk : j = k
        · exact .inl (ChainState.mem_settledExpirations.mpr
            ⟨j, List.mem_singleton.mpr hjk, c, hc, h0, he⟩)
        · refine .inr (ChainState.mem_settledExpirations.mpr
            ⟨j, (List.mem_cons.mp hj).resolve_left hjk, c, ?_, h0, he⟩)
          rw [expire_lookup_of_ne hi hjk]
          exact hc
      · rintro (h | h)
        · obtain ⟨j, hj, h⟩ := ChainState.mem_settledExpirations.mp h
          exact ChainState.mem_settledExpirations.mpr
            ⟨j, List.mem_cons.mpr (.inl (List.mem_singleton.mp hj)), h⟩
        · obtain ⟨j, hj, h⟩ := ChainState.mem_settledExpirations.mp (hrest h)
          exact ChainState.mem_settledExpirations.mpr ⟨j, List.mem_cons_of_mem _ hj, h⟩
    refine (ih (hi.expire k)).trans ?_
    rw [ChainState.expire_expirationSets]
    by_cases hk : t ∈ s.settledExpirations [k]
    · rw [if_pos hk, ite_self, if_pos (hcons.mpr (.inl hk))]
    · by_cases hr : t ∈ (s.expire cr ctx k).settledExpirations ids
      · rw [if_pos hr, if_pos (hcons.mpr (.inr hr))]
      · rw [if_neg hr, if_neg hk, if_neg (mt hcons.mp (not_or.mpr ⟨hk, hr⟩))]

theorem listedAt_expireAll (hi : Inv cr ctx s) (ids : List ℕ) {t : Int64}
    (ht : t ∉ s.settledExpirations ids) :
    (s.expireAll cr ctx ids).listedAt t = s.listedAt t := by
  unfold ChainState.listedAt
  rw [expireAll_expirationSets hi, if_neg ht]

/-! ## One step -/

theorem AllListed.of_eq {s' : ChainState} (h : AllListed ctx s) (hc : s'.contracts = s.contracts)
    (he : s'.expirationSets = s.expirationSets) : AllListed ctx s' := by
  intro k c hl h0
  rw [hc] at hl
  obtain ⟨t, h1, h2, h3⟩ := h k c hl h0
  refine ⟨t, h1, h2, ?_⟩
  rw [ChainState.listedAt, he]
  exact h3

/-- A settlement that is not final changes neither the end of the settlement
period nor the listing. -/
theorem AllListed.settle (cr : Crypto) {c : Contract} (hc : s.contracts.lookup c.id = some c)
    (nonce : Int64) (isFinal : Bool)
    (h : ∀ k c', s.contracts.lookup k = some c' → c'.settlementHeight = 0 →
      (isFinal = true → k ≠ c.id) → ListedInTime ctx s c') :
    AllListed ctx (s.settle cr ctx (c.raiseNonce nonce) isFinal) := by
  intro k c' hl h0
  have hlist : ∀ t, (s.settle cr ctx (c.raiseNonce nonce) isFinal).listedAt t = s.listedAt t := by
    intro t
    rw [ChainState.listedAt, ChainState.settle_expirationSets]
    rfl
  rw [ChainState.settle_lookup] at hl
  by_cases hk : k = (c.raiseNonce nonce).id
  · rw [if_pos hk] at hl
    cases hl
    cases isFinal with
    | true => exact absurd h0 (settled_settlementHeight_ne _)
    | false =>
      obtain ⟨t, h1, h2, h3⟩ := h c.id c hc h0 (fun hf => absurd hf Bool.false_ne_true)
      exact ⟨t, h1, h2, by rw [hlist]; exact h3⟩
  · rw [if_neg hk] at hl
    obtain ⟨t, h1, h2, h3⟩ := h k c' hl h0 (fun _ => hk)
    exact ⟨t, h1, h2, by rw [hlist]; exact h3⟩

/-- Listing anew keeps the listings of the sets that stay. -/
theorem mem_listedAt_relisted {c : Contract} {k : ℕ} {t : Int64} (hk : k ∈ s.listedAt t)
    (ht : c.isPayAsYouGo = true → t ≠ c.expiration) : k ∈ (s.relisted ctx c).listedAt t := by
  unfold ChainState.relisted
  by_cases hp : c.isPayAsYouGo = true
  · have hu : (s.unlist c.expiration).listedAt t = s.listedAt t := by
      rw [ChainState.listedAt_unlist, if_neg (ht hp)]
    rw [if_pos hp, ChainState.listedAt_list]
    by_cases hn : t = ctx.blockHeight + c.settlementDuration
    · rw [if_pos hn, ← hn, hu]
      exact List.mem_append_left _ hk
    · rw [if_neg hn, hu]
      exact hk
  · rw [if_neg hp]
    exact hk

theorem mem_listedAt_relisted_self {c : Contract} (hp : c.isPayAsYouGo = true) :
    c.id ∈ (s.relisted ctx c).listedAt (ctx.blockHeight + c.settlementDuration) := by
  unfold ChainState.relisted
  rw [if_pos hp, ChainState.listedAt_list, if_pos rfl]
  exact List.mem_append_right _ (List.mem_singleton_self _)

/-- A contract that is still open is listed anew in time. -/
theorem relisted_in_time {c : Contract} (hw : c.Wf cr) (hp : c.isPayAsYouGo = true)
    (ho : c.isOpen ctx.blockHeight = true) : ListedInTime ctx (s.relisted ctx c) c := by
  have hexp : ctx.blockHeight.toInt ≤ c.expiration.toInt := by
    have h : ¬ c.expiration < ctx.blockHeight := by
      simp only [Contract.isOpen, Bool.and_eq_true, Bool.not_eq_true', decide_eq_false_iff_not] at ho
      exact ho.1.2
    rw [Int64.lt_iff_toInt_lt] at h
    omega
  have hend := hw.settlementPeriodEnd_toInt
  have hfit := Int64.toInt_lt c.settlementPeriodEnd
  have hpos := ctx.pos
  have hsd := hw.settlementDuration_nonneg
  rw [if_pos hp] at hend
  rw [hw.expiration_toInt] at hexp
  have hnew : (ctx.blockHeight + c.settlementDuration).toInt =
      ctx.blockHeight.toInt + c.settlementDuration.toInt := toInt_add_of_fits (by omega) (by omega)
  exact ⟨_, by omega, by omega, mem_listedAt_relisted_self hp⟩

/-- **One step.**  A step that meets the guard keeps every unsettled contract
listed in time. -/
theorem Outcome.allListed (ho : Outcome cr w a w') (hi : Inv cr w.ctx w.chain)
    (hk : Keeps cr w a) (hall : AllListed w.ctx w.chain) : AllListed w'.ctx w'.chain := by
  cases ho with
  | rejected m => exact hall
  | unsent src dst coin => exact hall
  | provider m s' hdel hm hq hd => exact hall.of_eq hq.contracts hq.expirationSets
  | sent src dst coin h0 hle =>
    exact hall.of_eq (ChainState.sent_contracts ..) (ChainState.sent_expirationSets ..)
  | opened msg signer service c hsvc hv hc ho =>
    have hw := ho.wf
    intro k c' hl h0
    rw [ChainState.opened_lookup] at hl
    by_cases hk' : k = c.id
    · rw [if_pos hk'] at hl
      cases hl
      have hlt := hw.height_lt_expiration
      have hle := hw.expiration_le_settlementPeriodEnd
      rw [ho.height_eq] at hlt
      refine ⟨c.settlementPeriodEnd, by simp only; omega, le_refl _, ?_⟩
      rw [ChainState.opened_listedAt, if_pos rfl]
      exact List.mem_append_right _ (List.mem_singleton_self _)
    · rw [if_neg hk'] at hl
      obtain ⟨t, h1, h2, h3⟩ := hall k c' hl h0
      refine ⟨t, h1, h2, ?_⟩
      rw [ChainState.opened_listedAt]
      split
      · exact List.mem_append_left _ h3
      · exact h3
  | claimed msg c hc hid hn hset hf =>
    exact AllListed.settle cr hc msg.nonce false fun k c' hl h0 _ => hall k c' hl h0
  | closed msg c t hd hc hid hopen hby hs ht =>
    have hst := hi.stored _ c hc
    have hdel : deletedHeights cr w (.msg (.closeContract msg)) =
        if c.isPayAsYouGo then [c.expiration] else [] := by
      simp only [deletedHeights]
      rw [if_pos hd, ← hid, hc, Option.bind_some]
      split <;> rfl
    have hc' := ChainState.relisted_lookup w.ctx hc
    have hrel : ∀ k c', (w.chain.relisted w.ctx c).contracts.lookup k = some c' →
        c'.settlementHeight = 0 → (c.isSubscription = true → k ≠ c.id) →
          ListedInTime w.ctx (w.chain.relisted w.ctx c) c' := by
      intro k c' hl h0 hne
      rw [ChainState.relisted_contracts] at hl
      have hid' := (hi.stored k c' hl).id_eq
      obtain ⟨t', h1, h2, h3⟩ := hall k c' hl h0
      by_cases hp : c.isPayAsYouGo = true
      · by_cases hkc : k = c.id
        · subst hkc
          obtain rfl := Option.some.inj (hc.symm.trans hl)
          exact relisted_in_time hst.wf hp hopen
        · by_cases hexp : t' = c.expiration
          · -- the only listing at hand goes; the guard has another one
            rw [if_pos hp] at hdel
            obtain ⟨t'', -, hnd, h1', h2', h3'⟩ := hk c'
              ((ChainState.mem_unsettled hi).mpr ⟨hid' ▸ hl, h0⟩)
              (by simp [handled, ← hid, hid', hkc])
              ⟨t', by rw [hdel, hexp]; exact List.mem_singleton_self _, h3⟩
            rw [hdel, List.mem_singleton] at hnd
            exact ⟨t'', Int64.le_iff_toInt_le.mp h1', Int64.le_iff_toInt_le.mp h2',
              mem_listedAt_relisted h3' fun _ => hnd⟩
          · exact ⟨t', h1, h2, mem_listedAt_relisted h3 fun _ => hexp⟩
      · exact ⟨t', h1, h2, mem_listedAt_relisted h3 fun hp' => absurd hp' hp⟩
    have hset := AllListed.settle cr hc' 0 c.isSubscription hrel
    rw [hst.wf.raiseNonce_zero, ← ht] at hset
    exact hset.of_eq rfl rfl
  | ended ctx' hctx =>
    have hnext := Context.next_height hctx
    intro k c hl h0
    obtain ⟨hnot, hl⟩ := lookup_expireAll hi _ hl h0
    have hid := (hi.stored k c hl).id_eq
    obtain ⟨t, h1, h2, h3⟩ := hall k c hl h0
    -- a height at which an unhandled contract is listed is not this one
    have hlater : ∀ t, w.ctx.blockHeight.toInt ≤ t.toInt → c.id ∈ w.chain.listedAt t →
        ctx'.blockHeight.toInt ≤ t.toInt := by
      intro t hle hmem
      have hne : t ≠ w.ctx.blockHeight := by
        rintro rfl
        exact hnot (hid ▸ hmem)
      have hne' : t.toInt ≠ w.ctx.blockHeight.toInt := fun h => hne (Int64.toInt_inj.mp h)
      omega
    by_cases hdel : t ∈ w.chain.settledExpirations (w.chain.listedAt w.ctx.blockHeight)
    · obtain ⟨t', -, hnd, h1', h2', h3'⟩ := hk c
        ((ChainState.mem_unsettled hi).mpr ⟨hid ▸ hl, h0⟩) (hid.symm ▸ hnot) ⟨t, hdel, h3⟩
      refine ⟨t', hlater t' (Int64.le_iff_toInt_le.mp h1') h3', Int64.le_iff_toInt_le.mp h2', ?_⟩
      rw [listedAt_expireAll hi _ hnd]
      exact h3'
    · refine ⟨t, hlater t h1 h3, h2, ?_⟩
      rw [listedAt_expireAll hi _ hdel]
      exact h3

theorem Genesis.allListed (hg : Genesis w) : AllListed w.ctx w.chain := by
  intro k c h
  rw [hg.contracts] at h
  cases h

/-- In a guarded run every unsettled contract stays listed in time. -/
theorem run_allListed (hg : Genesis w) {actions : List Action}
    (hk : Runs.Guarded (step cr) (Keeps cr) w actions)
    (h : Runs.run (step cr) w actions = some w') : AllListed w'.ctx w'.chain := by
  have hrun : Inv cr w'.ctx w'.chain ∧ AllListed w'.ctx w'.chain := by
    have hstart : Inv cr w.ctx w.chain ∧ AllListed w.ctx w.chain := ⟨hg.inv, hg.allListed⟩
    refine Runs.run_induct_of_guarded
      (P := fun w => Inv cr w.ctx w.chain ∧ AllListed w.ctx w.chain) ?_ hstart hk h
    rintro v a v' ⟨hi, hl⟩ hguard hs
    have ho := step_outcome hi hs
    exact ⟨ho.inv hi, ho.allListed hi hguard hl⟩
  exact hrun.2

/-- **No deposit gets stuck.**  In a run whose steps all meet the guard, when a
block has ended every stored contract whose settlement period is over is finally
settled: nothing remains of its deposit, and it is in no user's set. -/
theorem expired_contracts_settled {w₀ w w' : World} (hg : Genesis w₀) {actions : List Action}
    (hk : Runs.Guarded (step cr) (Keeps cr) w₀ (actions ++ [.endBlock]))
    (hrun : Runs.run (step cr) w₀ actions = some w) (hend : step cr w .endBlock = some w')
    {k : ℕ} {c : Contract} (hc : w'.chain.contracts.lookup k = some c)
    (hexp : c.settlementPeriodEnd ≤ w.ctx.blockHeight) :
    0 < c.settlementHeight ∧ c.paid = c.deposit ∧
      ∀ key set, w'.chain.userSets.lookup key = some set → k ∉ set.contractSet.getD [] := by
  have hall : Runs.run (step cr) w₀ (actions ++ [.endBlock]) = some w' :=
    Runs.run_append.mpr ⟨w, hrun, Runs.run_cons.mpr ⟨w', hend, rfl⟩⟩
  have hi := reachable_inv hg hall
  have hw := (hi.stored k c hc).wf
  have hsettled : c.settlementHeight ≠ 0 := by
    intro h0
    obtain ⟨t, h1, h2, -⟩ := run_allListed hg hk hall k c hc h0
    rw [Int64.le_iff_toInt_le] at hexp
    -- the end of the block has moved the height past the settlement period
    cases step_outcome (reachable_inv hg hrun) hend with
    | ended ctx' hctx =>
      have hnext := Context.next_height hctx
      simp only at h1
      omega
  refine ⟨?_, hw.settled_paid hsettled, ?_⟩
  · have h0 := hw.settlementHeight_nonneg
    have hne : c.settlementHeight.toInt ≠ (0 : Int64).toInt := fun h =>
      hsettled (Int64.toInt_inj.mp h)
    rw [Int64.toInt_zero] at hne
    rw [Int64.lt_iff_toInt_lt, Int64.toInt_zero]
    omega
  · intro key set hset hmem
    refine hi.not_mem_userIds hc hsettled key ?_
    rw [ChainState.userIds, hset, Option.bind_some]
    exact hmem

theorem Sample.lifetimes_keeps : Runs.Guarded (step Sample.crypto) (Keeps Sample.crypto)
    Sample.genesis (Sample.lifetimes ++ [.endBlock]) := by
  rw [show Sample.lifetimes ++ [Action.endBlock] = Sample.setup ++ Sample.openings ++
    (Sample.lifetimes ++ [Action.endBlock]).drop 4 from rfl]
  refine (Runs.guarded_of_mem (fun w a ha => Keeps.of_deletes_none ?_) _).append Sample.openings_run
    (by decide +kernel)
  -- neither a bond nor an opening deletes a set
  simp only [Sample.setup, Sample.openings, List.cons_append, List.nil_append, List.mem_cons,
    List.not_mem_nil, or_false] at ha
  obtain rfl | rfl | rfl | rfl := ha <;> rfl

/-- A subscription and a pay-as-you-go contract run to their ends without a set
being deleted under another contract. -/
theorem expired_payAsYouGo_settled : ∃ w w' c,
    Runs.run (step Sample.crypto) Sample.genesis Sample.lifetimes = some w ∧
    step Sample.crypto w .endBlock = some w' ∧ w'.chain.contracts.lookup 2 = some c ∧
    c.settlementPeriodEnd ≤ w.ctx.blockHeight ∧ 0 < c.settlementHeight ∧ c.paid = c.deposit ∧
    ∀ key set, w'.chain.userSets.lookup key = some set → 2 ∉ set.contractSet.getD [] := by
  obtain ⟨w, w', c, hw, hw', hc, hh, he, -⟩ := Sample.lifetimes_run
  have hle : c.settlementPeriodEnd ≤ w.ctx.blockHeight := by rw [hh, he]; decide
  exact ⟨w, w', c, hw, hw', hc, hle,
    expired_contracts_settled Sample.genesis_ok Sample.lifetimes_keeps hw hw' hc hle⟩

/-- The client closes the pay-as-you-go contract, whose expiration is the end of
the subscription. -/
def Sample.orphaning : List Action :=
  setup ++
    [.msg (.openContract (openMsg .subscription 10)),
     .msg (.openContract (openMsg .payAsYouGo 100)),
     .msg (.closeContract
      { creator := client.account, contractId := 2, client := some client.pubKey
        delegate := none }),
     .endBlock]

/-- **A stuck deposit.**  Closing one contract deletes the listing of another: the
subscription ends at height 2 and is not settled when that block ends. -/
theorem subscription_orphaned : Genesis Sample.genesis ∧ ∃ w w' c,
    Runs.run (step Sample.crypto) Sample.genesis Sample.orphaning = some w ∧
    step Sample.crypto w .endBlock = some w' ∧ w'.chain.contracts.lookup 1 = some c ∧
    c.settlementPeriodEnd ≤ w.ctx.blockHeight ∧
    ¬(0 < c.settlementHeight) ∧ c.paid ≠ c.deposit := by
  have h : ((Runs.run (step Sample.crypto) Sample.genesis Sample.orphaning).bind fun w =>
      (step Sample.crypto w .endBlock).bind fun w' => (w'.chain.contracts.lookup 1).map fun c =>
        (w.ctx.blockHeight, c.settlementPeriodEnd, c.settlementHeight, c.paid, c.deposit)) =
      some (2, 2, 0, 0, 10) := by
    rw [show Sample.orphaning = Sample.setup ++ Sample.openings ++ Sample.orphaning.drop 4 from
      rfl, Runs.run_append_of Sample.openings_run]
    decide +kernel
  obtain ⟨w, hw, h⟩ := Option.bind_eq_some_iff.mp h
  obtain ⟨w', hw', h⟩ := Option.bind_eq_some_iff.mp h
  obtain ⟨c, hc, h⟩ := Option.map_eq_some_iff.mp h
  simp only [Prod.mk.injEq] at h
  obtain ⟨h1, h2, h3, h4, h5⟩ := h
  refine ⟨Sample.genesis_ok, w, w', c, hw, hw', hc, ?_, ?_, ?_⟩
  · rw [h1, h2]
    decide
  · rw [h3]
    decide
  · rw [h4, h5]
    decide

end Arkeo
