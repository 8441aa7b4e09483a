import Arkeo.Handlers

/-! # The end of a block

Under the invariant the loop of the end blocker never fails: a listed contract is
settled if it is not settled yet, and otherwise nothing happens
(`settleExpired_eq`).  The loop is therefore a fold (`expireAll`), it keeps the
invariant, and the check of the contract module passes after it.
-/
namespace Arkeo
open Exec

variable (cr : Crypto) (ctx : Context)

/-- What the end blocker does with one listed id. -/
def ChainState.expire (s : ChainState) (k : ℕ) : ChainState :=
  match s.contracts.lookup k with
  | none => s
  | some c =>
      if c.settlementHeight = 0 then (s.settle cr ctx c true).unlist c.expiration else s

/-- What the end blocker does with the ids of a set. -/
def ChainState.expireAll (s : ChainState) (ids : List ℕ) : ChainState :=
  ids.foldl (ChainState.expire cr ctx) s

variable {cr ctx} {s s' : ChainState} {u : Unit}

theorem ChainState.expire_of_settled {k : ℕ} {c : Contract} (hc : s.contracts.lookup k = some c)
    (hs : c.settlementHeight ≠ 0) : s.expire cr ctx k = s := by
  simp [expire, hc, hs]

theorem ChainState.expire_of_unsettled {k : ℕ} {c : Contract} (hc : s.contracts.lookup k = some c)
    (hs : c.settlementHeight = 0) :
    s.expire cr ctx k = (s.settle cr ctx c true).unlist c.expiration := by
  simp [expire, hc, hs]

theorem ChainState.expire_of_none {k : ℕ} (hc : s.contracts.lookup k = none) :
    s.expire cr ctx k = s := by
  simp [expire, hc]

/-- The products of a stored contract fit at every later height. -/
theorem Stored.dueFits {next k : ℕ} {c : Contract} (h : Stored cr ctx next k c) : c.DueFits ctx :=
  h.wf.dueFits h.height_le h.nonce_fits

/-- The final settlement of a contract that is not settled goes through. -/
theorem Inv.settleContract_of_unsettled (hi : Inv cr ctx s) {c : Contract}
    (hc : s.contracts.lookup c.id = some c) (hs : c.settlementHeight = 0) :
    settleContract cr ctx c 0 true s = .ok (c.settled ctx true) (s.settle cr ctx c true) := by
  have hst := hi.stored _ c hc
  have hfits : (c.raiseNonce 0).DueFits ctx := by
    rw [hst.wf.raiseNonce_zero]
    exact hst.dueFits
  have hok : settleContract cr ctx c 0 true s =
      .ok ((c.raiseNonce 0).settled ctx true) (s.settle cr ctx (c.raiseNonce 0) true) :=
    (hi.settleContract_ok hc).mpr ⟨⟨hfits, fun _ => hs⟩, rfl, rfl⟩
  rw [hst.wf.raiseNonce_zero] at hok
  exact hok

/-- A second final settlement fails, and leaves everything as it was. -/
theorem Inv.settleContract_of_settled (hi : Inv cr ctx s) {c : Contract}
    (hc : s.contracts.lookup c.id = some c) (hs : c.settlementHeight ≠ 0) :
    settleContract cr ctx c 0 true s = .error (.err .plain) s := by
  have hst := hi.stored _ c hc
  rw [settleContract, hst.wf.raiseNonce_zero]
  exact settleDebt_again hst.wf (hst.wf.due_nonneg hst.height_le) hst.dueFits hs
    (hi.not_mem_userIds hc hs _)

/-- **One pass of the loop**, with its error and its success. -/
theorem settleExpired_eq (hi : Inv cr ctx s) (k : ℕ) :
    settleExpired cr ctx k s = .ok () (s.expire cr ctx k) := by
  refine bind_ok.mpr ⟨_, s, getContract_ok.mpr ⟨rfl, rfl⟩, ?_⟩
  cases hc : s.contracts.lookup k with
  | none =>
    rw [ChainState.expire_of_none hc, Option.getD_none, if_pos rfl]
    exact pure_ok.mpr ⟨rfl, rfl⟩
  | some c =>
    have hst := hi.stored k c hc
    have hc' : s.contracts.lookup c.id = some c := by rw [hst.id_eq]; exact hc
    rw [Option.getD_some, if_neg hst.wf.client_ne, logged_ok]
    by_cases hs : c.settlementHeight = 0
    · rw [ChainState.expire_of_unsettled hc hs]
      exact .inl (bind_ok.mpr ⟨_, _, hi.settleContract_of_unsettled hc' hs,
        removeContractExpirationSet_ok.mpr rfl⟩)
    · rw [ChainState.expire_of_settled hc hs]
      exact .inr ⟨.plain, bind_error.mpr (.inl (hi.settleContract_of_settled hc' hs))⟩

theorem Inv.expire (hi : Inv cr ctx s) (k : ℕ) : Inv cr ctx (s.expire cr ctx k) := by
  cases hc : s.contracts.lookup k with
  | none => rw [ChainState.expire_of_none hc]; exact hi
  | some c =>
    have hst := hi.stored k c hc
    by_cases hs : c.settlementHeight = 0
    · have hc' : s.contracts.lookup c.id = some c := by rw [hst.id_eq]; exact hc
      have hfits : (c.raiseNonce 0).DueFits ctx := by
        rw [hst.wf.raiseNonce_zero]
        exact hst.dueFits
      have hset := hi.settle hc' 0 hfits true
      rw [hst.wf.raiseNonce_zero] at hset
      rw [ChainState.expire_of_unsettled hc hs]
      exact hset.unlist _
    · rw [ChainState.expire_of_settled hc hs]
      exact hi

theorem Inv.expireAll (hi : Inv cr ctx s) (ids : List ℕ) : Inv cr ctx (s.expireAll cr ctx ids) := by
  induction ids generalizing s with
  | nil => exact hi
  | cons k ids ih => exact ih (hi.expire k)

/-- **Induction along the loop.**  What the final settlement of a stored contract
keeps, the end of the block keeps. -/
theorem ChainState.expireAll_induct {P : ChainState → Prop}
    (hstep : ∀ s c, Inv cr ctx s → s.contracts.lookup c.id = some c → c.settlementHeight = 0 →
      P s → P ((s.settle cr ctx (c.raiseNonce 0) true).unlist c.expiration))
    (hi : Inv cr ctx s) (h : P s) (ids : List ℕ) : P (s.expireAll cr ctx ids) := by
  induction ids generalizing s with
  | nil => exact h
  | cons k ids ih =>
    refine ih (hi.expire k) ?_
    cases hc : s.contracts.lookup k with
    | none =>
      rw [ChainState.expire_of_none hc]
      exact h
    | some c =>
      have hst := hi.stored k c hc
      by_cases hs : c.settlementHeight = 0
      · have hset := hstep s c hi (by rw [hst.id_eq]; exact hc) hs h
        rw [hst.wf.raiseNonce_zero] at hset
        rw [ChainState.expire_of_unsettled hc hs]
        exact hset
      · rw [ChainState.expire_of_settled hc hs]
        exact h

/-- The loop never fails. -/
theorem forEach_settleExpired (hi : Inv cr ctx s) (ids : List ℕ) :
    forEach (settleExpired cr ctx) ids s = .ok () (s.expireAll cr ctx ids) := by
  induction ids generalizing s with
  | nil => exact forEach_nil_ok.mpr rfl
  | cons k ids ih => exact forEach_cons_ok.mpr ⟨_, settleExpired_eq hi k, ih (hi.expire k)⟩

theorem contractEndBlock_eq (hi : Inv cr ctx s) : contractEndBlock cr ctx s =
    .ok () (s.expireAll cr ctx (s.listedAt ctx.blockHeight)) := by
  have hids : ((s.expirationSets.lookup ctx.blockHeight).getD ⟨ctx.blockHeight, []⟩).contractIds =
      s.listedAt ctx.blockHeight := by
    unfold ChainState.listedAt
    cases s.expirationSets.lookup ctx.blockHeight <;> rfl
  refine bind_ok.mpr ⟨_, s, getContractExpirationSet_ok.mpr ⟨rfl, rfl⟩, ?_⟩
  rw [hids]
  exact forEach_settleExpired hi _

/-! ## The check of the contract module -/

/-- The amount a list of coins has in a denomination. -/
def amountIn (sums : List Coin) (d : String) : ℤ :=
  (sums.map fun x => if x.denom = d then x.amount else 0).sum

theorem amountIn_addCoin (coin : Coin) (sums : List Coin) (d : String) :
    amountIn (addCoin coin sums) d = amountIn sums d + if coin.denom = d then coin.amount else 0 := by
  induction sums with
  | nil => simp [amountIn, addCoin]
  | cons x sums ih =>
    unfold addCoin
    by_cases hx : x.denom = coin.denom
    · rw [if_pos hx]
      simp only [amountIn, List.map_cons, List.sum_cons, ← hx]
      split <;> omega
    · rw [if_neg hx]
      simp only [amountIn, List.map_cons, List.sum_cons] at ih ⊢
      omega

theorem addCoin_nonneg {coin : Coin} {sums : List Coin} (hc : 0 ≤ coin.amount)
    (hs : ∀ x ∈ sums, 0 ≤ x.amount) : ∀ x ∈ addCoin coin sums, 0 ≤ x.amount := by
  induction sums with
  | nil =>
    intro x hx
    rw [List.mem_singleton.mp hx]
    exact hc
  | cons y sums ih =>
    obtain ⟨hy, hs⟩ := List.forall_mem_cons.mp hs
    unfold addCoin
    split
    · exact List.forall_mem_cons.mpr ⟨Int.add_nonneg hy hc, hs⟩
    · exact List.forall_mem_cons.mpr ⟨hy, ih hs⟩

theorem le_amountIn {sums : List Coin} (hs : ∀ x ∈ sums, 0 ≤ x.amount) {x : Coin} (hx : x ∈ sums) :
    x.amount ≤ amountIn sums x.denom := by
  have hmem : (if x.denom = x.denom then x.amount else 0) ∈
      sums.map fun y => if y.denom = x.denom then y.amount else 0 :=
    List.mem_map_of_mem (f := fun y : Coin => if y.denom = x.denom then y.amount else 0) hx
  rw [if_pos rfl] at hmem
  refine List.single_le_sum ?_ _ hmem
  intro y hy
  obtain ⟨z, hz, rfl⟩ := List.mem_map.mp hy
  have := hs z hz
  split <;> omega

/-- What remains of the deposits of a list of contracts in a denomination. -/
def remainingIn (cs : List Contract) (d : String) : ℤ :=
  (cs.map fun c => if c.rate.denom = d then c.remaining else 0).sum

theorem remainingIn_cons (c : Contract) (cs : List Contract) (d : String) :
    remainingIn (c :: cs) d = (if c.rate.denom = d then c.remaining else 0) + remainingIn cs d := by
  simp [remainingIn]

/-- The sums of the check do not overflow, no coin of it is negative, and they are
at most what remains of the deposits. -/
theorem sumContracts_ok (ctx : Context) (s : ChainState) {cs : List Contract} (hcs : ∀ c ∈ cs, c.Wf cr) {sums : List Coin}
    (hs : ∀ x ∈ sums, 0 ≤ x.amount) (hlt : ∀ d, amountIn sums d + remainingIn cs d < 2 ^ 256) :
    ∃ sums', sumContracts ctx cs sums s = .ok sums' s ∧ (∀ x ∈ sums', 0 ≤ x.amount) ∧
      ∀ d, amountIn sums' d ≤ amountIn sums d + remainingIn cs d := by
  induction cs generalizing sums with
  | nil => exact ⟨sums, rfl, hs, fun d => by simp [remainingIn]⟩
  | cons c cs ih =>
    obtain ⟨hw, hcs⟩ := List.forall_mem_cons.mp hcs
    have h0 := hw.remaining_nonneg
    simp only [remainingIn_cons] at hlt ⊢
    unfold sumContracts
    by_cases hset : c.isSettled ctx.blockHeight = true
    · have hdrop : ∀ d, amountIn sums d + remainingIn cs d < 2 ^ 256 := by
        intro d
        have := hlt d
        split at this <;> omega
      obtain ⟨sums', hok, hs', hle⟩ := ih hcs hs hdrop
      refine ⟨sums', by rw [if_pos hset]; exact hok, hs', fun d => ?_⟩
      have := hle d
      split <;> omega
    · have hadd : ∀ d, amountIn (addCoin ⟨c.rate.denom, c.remaining⟩ sums) d =
          amountIn sums d + if c.rate.denom = d then c.remaining else 0 :=
        amountIn_addCoin _ _
      have hnn : ∀ x ∈ addCoin ⟨c.rate.denom, c.remaining⟩ sums, 0 ≤ x.amount :=
        addCoin_nonneg h0 hs
      have hrest : ∀ d, amountIn (addCoin ⟨c.rate.denom, c.remaining⟩ sums) d + remainingIn cs d <
          2 ^ 256 := by
        intro d
        rw [hadd]
        have := hlt d
        omega
      obtain ⟨sums', hok, hs', hle⟩ := ih hcs hnn hrest
      refine ⟨sums', ?_, hs', fun d => ?_⟩
      · have hp := hw.paid_nonneg
        have hd := hw.deposit_fits
        rw [if_neg hset]
        refine bind_ok.mpr ⟨c.remaining, s, checked_ok.mpr ⟨?_, rfl, rfl⟩, ?_⟩
        · unfold Contract.remaining at h0
          omega
        refine bind_ok.mpr ⟨_, s, newCoin_ok.mpr ⟨⟨hw.denom_valid, h0⟩, rfl, rfl⟩, ?_⟩
        refine failIf_bind_ok.mpr ⟨?_, hok⟩
        rw [List.any_eq_false]
        intro x hx
        have h1 := hnn x hx
        have h2 := le_amountIn hnn hx
        have h3 : 0 ≤ remainingIn cs x.denom := by
          refine List.sum_nonneg ?_
          intro y hy
          obtain ⟨c', hc', rfl⟩ := List.mem_map.mp hy
          have := (hcs c' hc').remaining_nonneg
          split <;> omega
        have h4 := hrest x.denom
        simp only [decide_eq_true_eq]
        omega
      · have := hle d
        rw [hadd] at this
        omega

/-- **The check of the contract module passes**: it neither fails nor panics. -/
theorem invariantContractModule_ok (hi : Inv cr ctx s) :
    invariantContractModule ctx s = .ok () s := by
  have howed : ∀ d, remainingIn (s.contracts.entries.map Sigma.snd) d = s.owed d := by
    intro d
    unfold remainingIn ChainState.owed AList.sumOver
    rw [List.map_map]
    rfl
  have hwf : ∀ c ∈ s.contracts.entries.map Sigma.snd, c.Wf cr := by
    intro c hc
    obtain ⟨⟨k, c'⟩, he, rfl⟩ := List.mem_map.mp hc
    exact (hi.stored k c' (AList.mem_entries.mp he)).wf
  have hle : ∀ d, s.owed d ≤ s.balance (.module .contract) d := hi.solvent
  have hlt : ∀ d, amountIn [] d + remainingIn (s.contracts.entries.map Sigma.snd) d < 2 ^ 256 := by
    intro d
    rw [howed]
    have h1 := hle d
    have h2 := hi.balance_fits (.module .contract) d
    simp only [amountIn, List.map_nil, List.sum_nil]
    omega
  obtain ⟨sums, hok, hnn, hsum⟩ := sumContracts_ok ctx s hwf
    (show ∀ x ∈ ([] : List Coin), 0 ≤ x.amount from nofun) hlt
  unfold invariantContractModule
  rw [reading_bind]
  refine bind_ok.mpr ⟨sums, s, hok, ?_⟩
  rw [reading_bind, failIf_ok]
  refine ⟨List.any_eq_false.mpr ?_, rfl⟩
  intro x hx
  have h1 := le_amountIn hnn hx
  have h2 := hsum x.denom
  have h3 := hle x.denom
  rw [howed] at h2
  simp only [amountIn, List.map_nil, List.sum_nil] at h1 h2
  simp only [Bool.and_eq_true, decide_eq_true_eq, not_and]
  intro _
  omega

/-- **The end of a block.**  When it succeeds, it has settled what was listed for
the height. -/
theorem endBlock_ok (hi : Inv cr ctx s) (h : endBlock cr ctx s = .ok u s') :
    s' = s.expireAll cr ctx (s.listedAt ctx.blockHeight) := by
  have horPanic : ∀ {x : Keeper Unit} {t t' : ChainState} {v : Unit},
      orPanic x t = .ok v t' → x t = .ok v t' := by
    intro x t t' v hx
    unfold orPanic at hx
    split at hx
    · rename_i heq
      cases hx
      exact heq
    · cases hx
  unfold endBlock at h
  obtain ⟨_, _, hx, h⟩ := bind_ok.mp h
  have hloop : logged (contractEndBlock cr ctx) s =
      .ok () (s.expireAll cr ctx (s.listedAt ctx.blockHeight)) :=
    logged_ok.mpr (.inl (contractEndBlock_eq hi))
  rw [hloop] at hx
  cases hx
  obtain ⟨_, _, hx, h⟩ := bind_ok.mp h
  have hb := horPanic hx
  unfold invariantBondModule at hb
  rw [reading_bind, reading_bind, failIf_ok] at hb
  obtain ⟨-, rfl⟩ := hb
  obtain ⟨_, _, hx, h⟩ := bind_ok.mp h
  have hc := horPanic hx
  rw [invariantContractModule_ok (hi.expireAll _)] at hc
  cases hc
  have hm := horPanic h
  unfold invariantMaxSupply at hm
  rw [reading_bind, failIf_ok] at hm
  exact hm.2.symm

end Arkeo
