import Arkeo.Expiry

/-! # What the end of a block and a close leave alone

An expiration set belongs to the height it is stored under and to all the contracts in it.
The end blocker deletes the sets at the `Expiration()` of the contracts it settles, which
is not its own height when one of them was closed early or is pay-as-you-go
(`contractEndBlock_frame_iff`), and a close of a pay-as-you-go contract deletes the set at
its `Expiration()` together with everyone else in it (`closeContract_frame_iff`).
-/
namespace Arkeo
open Exec

variable {cr : Crypto} {ctx : Context} {s s' : ChainState} {w₀ w : World} {actions : List Action}

/-! ## The end of a block -/

/-- The end blocker at a height settles what is listed there, and touches nothing but the
set of the height and the records it settles. -/
structure TouchesOwnHeight (ctx : Context) (s s' : ChainState) : Prop where
  others : ∀ t, t ≠ ctx.blockHeight → s'.expirationSets.lookup t = s.expirationSets.lookup t
  settled : ∀ k ∈ s.listedAt ctx.blockHeight, ∀ c, s.contracts.lookup k = some c →
    c.settlementHeight = 0 → s'.contracts.lookup k = some (c.settled ctx true)
  records : ∀ k, (k ∈ s.listedAt ctx.blockHeight → ∀ c, s.contracts.lookup k = some c →
    c.settlementHeight ≠ 0) → s'.contracts.lookup k = s.contracts.lookup k
  removed : s'.expirationSets.lookup ctx.blockHeight = none

/-- A contract that is listed at the height and that the end blocker is going to settle. -/
def ChainState.Ending (s : ChainState) (ctx : Context) (c : Contract) : Prop :=
  ∃ k ∈ s.listedAt ctx.blockHeight, s.contracts.lookup k = some c ∧ c.settlementHeight = 0

/-- **The condition.**  Whatever is going to be settled has its expiration at this height,
or at one without a set, and a set of this height has something in it that does. -/
structure EndsOnTime (ctx : Context) (s : ChainState) : Prop where
  expirations : ∀ c, s.Ending ctx c →
    c.expiration = ctx.blockHeight ∨ s.expirationSets.lookup c.expiration = none
  own : s.expirationSets.lookup ctx.blockHeight = none ∨
    ∃ c, s.Ending ctx c ∧ c.expiration = ctx.blockHeight

theorem ChainState.mem_settledExpirations_listedAt {t : Int64} :
    t ∈ s.settledExpirations (s.listedAt ctx.blockHeight) ↔
      ∃ c, s.Ending ctx c ∧ c.expiration = t := by
  rw [mem_settledExpirations]
  constructor
  · rintro ⟨k, hk, c, hc, h0, he⟩
    exact ⟨c, ⟨k, hk, hc, h0⟩, he⟩
  · rintro ⟨c, ⟨k, hk, hc, h0⟩, he⟩
    exact ⟨k, hk, c, hc, h0, he⟩

/-- **The records after the loop**: the listed ones are settled, the others are as before. -/
theorem expireAll_lookup (hi : Inv cr ctx s) (ids : List ℕ) (k : ℕ) :
    (s.expireAll cr ctx ids).contracts.lookup k =
      if k ∈ ids then
        (s.contracts.lookup k).map fun c => if c.settlementHeight = 0 then c.settled ctx true else c
      else s.contracts.lookup k := by
  induction ids generalizing s with
  | nil => rfl
  | cons j ids ih =>
    refine (ih (hi.expire j)).trans ?_
    by_cases hkj : k = j
    · subst hkj
      rw [if_pos List.mem_cons_self]
      cases hl : s.contracts.lookup k with
      | none =>
        rw [ChainState.expire_of_none hl, hl]
        exact ite_self _
      | some c =>
        rw [Option.map_some]
        by_cases hs : c.settlementHeight = 0
        · rw [ChainState.expire_lookup hl hs (hi.stored k c hl).id_eq, if_pos rfl, if_pos hs,
            Option.map_some, if_neg (settled_settlementHeight_ne c)]
          exact ite_self _
        · rw [ChainState.expire_of_settled hl hs, hl, if_neg hs, Option.map_some, if_neg hs]
          exact ite_self _
    · rw [expire_lookup_of_ne hi hkj]
      by_cases hk : k ∈ ids
      · rw [if_pos hk, if_pos (List.mem_cons_of_mem _ hk)]
      · rw [if_neg hk, if_neg]
        intro h
        exact (List.mem_cons.mp h).elim hkj hk

/-- What the loop does to the sets is all that can go wrong. -/
theorem expireAll_touches_iff (hi : Inv cr ctx s) :
    TouchesOwnHeight ctx s (s.expireAll cr ctx (s.listedAt ctx.blockHeight)) ↔
      EndsOnTime ctx s := by
  have hsets := expireAll_expirationSets hi (s.listedAt ctx.blockHeight)
  constructor
  · rintro ⟨hothers, -, -, hremoved⟩
    refine ⟨?_, ?_⟩
    · intro c hc
      by_cases hexp : c.expiration = ctx.blockHeight
      · exact .inl hexp
      · have h := hothers _ hexp
        rw [hsets, if_pos (ChainState.mem_settledExpirations_listedAt.mpr ⟨c, hc, rfl⟩)] at h
        exact .inr h.symm
    · by_cases hown : ctx.blockHeight ∈ s.settledExpirations (s.listedAt ctx.blockHeight)
      · exact .inr (ChainState.mem_settledExpirations_listedAt.mp hown)
      · rw [hsets, if_neg hown] at hremoved
        exact .inl hremoved
  · rintro ⟨hexps, hown⟩
    refine { others := ?_, settled := ?_, records := ?_, removed := ?_ }
    · intro t ht
      rw [hsets]
      by_cases hmem : t ∈ s.settledExpirations (s.listedAt ctx.blockHeight)
      · obtain ⟨c, hc, rfl⟩ := ChainState.mem_settledExpirations_listedAt.mp hmem
        rw [if_pos hmem, (hexps c hc).resolve_left ht]
      · rw [if_neg hmem]
    · intro k hk c hc h0
      rw [expireAll_lookup hi, if_pos hk, hc, Option.map_some, if_pos h0]
    · intro k hk
      rw [expireAll_lookup hi]
      by_cases hlisted : k ∈ s.listedAt ctx.blockHeight
      · rw [if_pos hlisted]
        cases hc : s.contracts.lookup k with
        | none => rfl
        | some c => rw [Option.map_some, if_neg (hk hlisted c hc)]
      · rw [if_neg hlisted]
    · rw [hsets]
      rcases hown with hnone | hsome
      · rw [hnone]
        exact ite_self _
      · rw [if_pos (ChainState.mem_settledExpirations_listedAt.mpr hsome)]

/-- **The end blocker keeps to its height exactly when what it settles ends there.**  In a
reachable store it succeeds at the height of the block and at every later one. -/
theorem contractEndBlock_frame_iff (hg : Genesis w₀)
    (hrun : Runs.run (step cr) w₀ actions = some w)
    (hh : w.ctx.blockHeight.toInt ≤ ctx.blockHeight.toInt) :
    ∃ s', contractEndBlock cr ctx w.chain = .ok () s' ∧
      (TouchesOwnHeight ctx w.chain s' ↔ EndsOnTime ctx w.chain) := by
  have hi := (reachable_inv hg hrun).next hh
  exact ⟨_, contractEndBlock_eq hi, expireAll_touches_iff hi⟩

namespace Sample

/-- A contract of three blocks. -/
def openLong (type : ContractType) (deposit : ℤ) : MsgOpenContract :=
  { openMsg type deposit with duration := 3 }

/-- A pay-as-you-go contract is closed before its end, and a subscription of another spender
is opened that ends where it would have ended. -/
def earlyClose : List Action :=
  setup ++
    [.msg (.openContract (openLong .payAsYouGo 100)),
     .msg (.closeContract
      { creator := client.account, contractId := 1, client := some client.pubKey
        delegate := none }),
     .msg (.openContract { openLong .subscription 30 with delegate := provider.pubKey }),
     .endBlock]

end Sample

/-- The end of the block that settles the pay-as-you-go contract. -/
theorem lifetimes_frame : ∃ w s',
    Runs.run (step Sample.crypto) Sample.genesis Sample.lifetimes = some w ∧
    w.ctx.blockHeight = 3 ∧ contractEndBlock Sample.crypto w.ctx w.chain = .ok () s' ∧
    (TouchesOwnHeight w.ctx w.chain s' ↔ EndsOnTime w.ctx w.chain) := by
  obtain ⟨w, _, _, hw, -, -, hheight, -⟩ := Sample.lifetimes_run
  obtain ⟨s', hs', hiff⟩ := contractEndBlock_frame_iff Sample.genesis_ok hw (le_refl _)
  exact ⟨w, s', hw, hheight, hs', hiff⟩

/-- **The set of another height goes.**  The end of block 2 settles the contract that was
closed in block 1 and deletes the set at height 4, in which only the subscription is. -/
theorem endBlock_deletes_later_set : Genesis Sample.genesis ∧ ∃ w s',
    Runs.run (step Sample.crypto) Sample.genesis Sample.earlyClose = some w ∧
    w.ctx.blockHeight = 2 ∧ contractEndBlock Sample.crypto w.ctx w.chain = .ok () s' ∧
    w.chain.listedAt 4 = [2] ∧ s'.listedAt 4 = [] ∧ s'.listedAt 2 = [1] ∧
    ¬TouchesOwnHeight w.ctx w.chain s' := by
  have h : ((Runs.run (step Sample.crypto) Sample.genesis Sample.earlyClose).bind fun w =>
      (step Sample.crypto w .endBlock).map fun w' =>
        (w.ctx.blockHeight, w.chain.listedAt 4, w'.chain.listedAt 4, w'.chain.listedAt 2)) =
      some (2, [2], [], [1]) := by
    rw [Sample.earlyClose, Runs.run_append_of Sample.setup_run]
    decide +kernel
  obtain ⟨w, hw, h⟩ := Option.bind_eq_some_iff.mp h
  obtain ⟨w', hw', h⟩ := Option.map_eq_some_iff.mp h
  simp only [Prod.mk.injEq] at h
  obtain ⟨hheight, hbefore, hafter, hown⟩ := h
  have hi := reachable_inv Sample.genesis_ok hw
  refine ⟨Sample.genesis_ok, w, w'.chain, hw, hheight, ?_, hbefore, hafter, hown, ?_⟩
  · rw [contractEndBlock_eq hi]
    cases step_outcome hi hw' with
    | ended ctx' hctx => rfl
  · intro htouches
    have hkept := htouches.others 4 (by rw [hheight]; decide)
    have hsame : w'.chain.listedAt 4 = w.chain.listedAt 4 := by
      unfold ChainState.listedAt
      rw [hkept]
    rw [hbefore, hafter] at hsame
    cases hsame

/-! ## A close -/

/-- What concerns the other contracts, the one with the id `k` apart. -/
structure OthersKept (k : ℕ) (s s' : ChainState) : Prop where
  records : ∀ j ≠ k, s'.contracts.lookup j = s.contracts.lookup j
  listings : ∀ j ≠ k, ∀ t, (s'.listedAt t).count j = (s.listedAt t).count j
  users : ∀ j ≠ k, ∀ key, (s'.userIds key).count j = (s.userIds key).count j

/-- **The condition.**  A pay-as-you-go contract shares the set at its expiration with no
other contract. -/
def Unshared (k : ℕ) (s : ChainState) : Prop :=
  ∀ c, s.contracts.lookup k = some c → c.isPayAsYouGo = true →
    ∀ j ∈ s.listedAt c.expiration, j = k

theorem count_relisted {c : Contract} {j : ℕ} (hj : j ≠ c.id) (t : Int64) :
    ((s.relisted ctx c).listedAt t).count j =
      if c.isPayAsYouGo = true ∧ t = c.expiration then 0 else (s.listedAt t).count j := by
  have hself : List.count j [c.id] = 0 := List.count_eq_zero.mpr (mt List.mem_singleton.mp hj)
  unfold ChainState.relisted
  by_cases hp : c.isPayAsYouGo = true
  · rw [if_pos hp, ChainState.listedAt_list]
    have hunlisted : ((s.unlist c.expiration).listedAt t).count j =
        if c.isPayAsYouGo = true ∧ t = c.expiration then 0 else (s.listedAt t).count j := by
      rw [ChainState.listedAt_unlist]
      by_cases ht : t = c.expiration
      · rw [if_pos ht, if_pos ⟨hp, ht⟩, List.count_nil]
      · rw [if_neg ht, if_neg fun h => ht h.2]
    by_cases hnew : t = ctx.blockHeight + c.settlementDuration
    · rw [if_pos hnew, List.count_append, hself, Nat.add_zero, ← hnew, hunlisted]
    · rw [if_neg hnew, hunlisted]
  · rw [if_neg hp, if_neg fun h => hp h.1]

/-- **A close keeps to its contract exactly when the set it deletes is its own.** -/
theorem closeContract_frame_iff (hg : Genesis w₀)
    (hrun : Runs.run (step cr) w₀ actions = some w) {msg : MsgCloseContract}
    (hdel : deliver cr w.ctx (.closeContract msg) w.chain = some s') :
    OthersKept msg.contractId w.chain s' ↔ Unshared msg.contractId w.chain := by
  have hi := reachable_inv hg hrun
  obtain ⟨c, t, hc, hid, -, -, -, -, ht, rfl⟩ := closeContract_ok hi (deliver_some hdel).2
  have hlist : ∀ j ≠ msg.contractId, ∀ h, List.count j (t.listedAt h) =
      if c.isPayAsYouGo = true ∧ h = c.expiration then 0
      else (w.chain.listedAt h).count j := by
    intro j hj h
    have hsets : t.listedAt h = (w.chain.relisted w.ctx c).listedAt h := by
      unfold ChainState.listedAt
      rw [ht, ChainState.settle_expirationSets]
    rw [hsets, count_relisted (by rw [hid]; exact hj)]
  constructor
  · intro hkept c' hc' hp j hj
    obtain rfl := Option.some.inj (hc.symm.trans hc')
    by_contra hne
    have hcount := hkept.listings j hne c.expiration
    have hzero := hlist j hne c.expiration
    rw [if_pos ⟨hp, rfl⟩] at hzero
    exact List.count_eq_zero.mp (hcount.symm.trans hzero) hj
  · intro hun
    refine { records := ?_, listings := ?_, users := ?_ }
    · intro j hj
      change t.contracts.lookup j = _
      rw [ht, ChainState.settle_lookup, if_neg (by rw [hid]; exact hj),
        ChainState.relisted_contracts]
    · intro j hj h
      refine (hlist j hj h).trans ?_
      by_cases hexp : c.isPayAsYouGo = true ∧ h = c.expiration
      · obtain ⟨hp, rfl⟩ := hexp
        rw [if_pos ⟨hp, rfl⟩]
        exact (List.count_eq_zero.mpr fun hmem => hj (hun c hc hp j hmem)).symm
      · rw [if_neg hexp]
    · intro j hj key
      have huser : t.userIds key = if c.isSubscription = true ∧ key = toUpper c.getSpender
          then ((w.chain.relisted w.ctx c).userIds key).erase c.id
          else (w.chain.relisted w.ctx c).userIds key := by
        rw [ht, ChainState.settle_userIds]
      have hsame : (w.chain.relisted w.ctx c).userIds key = w.chain.userIds key := by
        unfold ChainState.relisted
        split <;> rfl
      change List.count j (t.userIds key) = _
      rw [huser, hsame]
      split
      · exact List.count_erase_of_ne (by rw [hid]; exact hj)
      · rfl

namespace Sample

/-- A subscription and a pay-as-you-go contract that expire at the same height. -/
def shared : List Action :=
  setup ++ [.msg (.openContract (openMsg .subscription 10)),
    .msg (.openContract (openMsg .payAsYouGo 100))]

/-- The client closes the pay-as-you-go contract. -/
def closeShared : MsgCloseContract where
  creator := client.account
  contractId := 2
  client := some client.pubKey
  delegate := none

/-- The close is accepted, and the subscription is listed no more. -/
theorem shared_run : ∃ w s', Runs.run (step crypto) genesis shared = some w ∧
    deliver crypto w.ctx (.closeContract closeShared) w.chain = some s' ∧
    (w.chain.listedAt 2).count 1 = 1 ∧ (s'.listedAt 2).count 1 = 0 := by
  have h : ((Runs.run (step crypto) genesis shared).bind fun w =>
      (deliver crypto w.ctx (.closeContract closeShared) w.chain).map fun s' =>
        ((w.chain.listedAt 2).count 1, (s'.listedAt 2).count 1)) = some (1, 0) := by
    rw [show shared = setup ++ openings from rfl, openings_run]
    decide +kernel
  obtain ⟨w, hw, h⟩ := Option.bind_eq_some_iff.mp h
  obtain ⟨s', hs, h⟩ := Option.map_eq_some_iff.mp h
  obtain ⟨hbefore, hafter⟩ := Prod.mk.inj h
  exact ⟨w, s', hw, hs, hbefore, hafter⟩

end Sample

/-- The accepted close, and what it takes. -/
theorem shared_close_frame : ∃ w s',
    Runs.run (step Sample.crypto) Sample.genesis Sample.shared = some w ∧
    deliver Sample.crypto w.ctx (.closeContract Sample.closeShared) w.chain = some s' ∧
    (OthersKept 2 w.chain s' ↔ Unshared 2 w.chain) := by
  obtain ⟨w, s', hw, hs, -⟩ := Sample.shared_run
  exact ⟨w, s', hw, hs, closeContract_frame_iff Sample.genesis_ok hw hs⟩

/-- **The listing of another contract goes.**  Closing the pay-as-you-go contract takes the
subscription out of the only set it is in. -/
theorem close_unlists_another : Genesis Sample.genesis ∧ ∃ w s',
    Runs.run (step Sample.crypto) Sample.genesis Sample.shared = some w ∧
    deliver Sample.crypto w.ctx (.closeContract Sample.closeShared) w.chain = some s' ∧
    ¬OthersKept Sample.closeShared.contractId w.chain s' := by
  obtain ⟨w, s', hw, hs, hbefore, hafter⟩ := Sample.shared_run
  refine ⟨Sample.genesis_ok, w, s', hw, hs, ?_⟩
  intro hkept
  have hcount := hkept.listings 1 (by decide) 2
  rw [hbefore, hafter] at hcount
  cases hcount

end Arkeo
