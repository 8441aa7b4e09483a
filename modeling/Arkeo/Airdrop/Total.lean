import Arkeo.Airdrop.Payout

/-! # The total that is claimable

`GetUserTotalClaimable` adds up what is claimable for the three actions, in a coin of the
denomination of the claim amount.  Once the claim amount was paid that denomination is empty,
and the coin to start from panics.  Where it does not, the total is the sum of the parts and
what the three actions are paid in any order (`totalClaimable_iff`).
-/
namespace Arkeo.Airdrop
open Exec

variable {env : Env} {ctx ctx₀ : Context} {s s' s₀ : Store} {w : World} {r : ClaimRecord}
  {a b : Action} {address : String} {chain : Chain}

/-! ## The parts -/

/-- What is claimable of a coin can be said without a panic. -/
def Context.Readable (ctx : Context) (c : Coin) : Prop :=
  ctx.Started → c.value = 0 ∨ ctx.Computes c

instance (ctx : Context) (c : Coin) : Decidable (ctx.Readable c) :=
  inferInstanceAs (Decidable (_ → _))

/-- Something is claimable only after the start. -/
theorem Context.started_of_worth {c : Coin} (h : ctx.worth c ≠ 0) : ctx.Started ∧ c.value ≠ 0 := by
  refine ⟨?_, fun hv => h (worth_of_value hv)⟩
  by_contra hs
  exact h (worth_of_not_started hs c)

/-- **A part of the total** has a value where it can be read. -/
theorem claimableAmount_readable (hne : r.isEmpty = false) (hend : ¬ctx.Ended)
    (h : ctx.Readable (r.amount a)) :
    ∃ coin, claimableAmount ctx r a = .ok coin ∧ coin.value = ctx.worth (r.amount a) := by
  by_cases hs : ctx.Started
  · by_cases hv : (r.amount a).value = 0
    · exact ⟨{}, claimableAmount_nothing (.inr (.inr hv)), (Context.worth_of_value hv).symm⟩
    · have hc := (h hs).resolve_left hv
      exact ⟨_, (claimableAmount_running ⟨hs, hend⟩ hne hv).mpr ⟨hc, rfl⟩, rfl⟩
  · exact ⟨{}, claimableAmount_nothing (.inr (.inl hs)), (Context.worth_of_not_started hs _).symm⟩

theorem Context.Readable.of_claimable (hne : r.isEmpty = false) (hend : ¬ctx.Ended) {coin : Coin}
    (h : claimableAmount ctx r a = .ok coin) : ctx.Readable (r.amount a) := by
  intro hs
  by_cases hv : (r.amount a).value = 0
  · exact .inl hv
  · exact .inr ((claimableAmount_running ⟨hs, hend⟩ hne hv).mp h).1

theorem getClaimable_ok {coin : Coin} (hr : getClaimRecord address chain s = r) :
    getClaimableAmountForAction ctx address a chain s = .ok coin s' ↔
      claimableAmount ctx r a = .ok coin ∧ s' = s := by
  unfold getClaimableAmountForAction
  rw [reading_bind, hr, fromExcept_ok, eq_comm (a := s)]

/-! ## The total -/

/-- The total is computed without an overflow. -/
structure ClaimRecord.Fits (ctx : Context) (r : ClaimRecord) : Prop where
  claim : (ctx.worth r.amountClaim).natAbs < 2 ^ 256
  vote : (ctx.worth r.amountClaim + ctx.worth r.amountVote).natAbs < 2 ^ 256
  delegate : (ctx.worth r.amountClaim + ctx.worth r.amountVote +
    ctx.worth r.amountDelegate).natAbs < 2 ^ 256

/-- One part is added to the total. -/
def addPart (ctx : Context) (address : String) (chain : Chain) (total : Coin) (action : Action) :
    Keeper Coin := do
  let claimable ← getClaimableAmountForAction ctx address action chain
  if claimable.isNil then pure total
  else ofOption (total.add { denom := total.denom, amount := claimable.amount }) .panic

theorem addPart_ok (hr : getClaimRecord address chain s = r) (hne : r.isEmpty = false)
    (hend : ¬ctx.Ended) {denom : String} {n : ℤ} (hn : n.natAbs < 2 ^ 256) {total : Coin} :
    addPart ctx address chain ⟨denom, some n⟩ a s = .ok total s' ↔
      ctx.Readable (r.amount a) ∧ (n + ctx.worth (r.amount a)).natAbs < 2 ^ 256 ∧
        total = ⟨denom, some (n + ctx.worth (r.amount a))⟩ ∧ s' = s := by
  -- what is added, once the part is known
  have hadd : ∀ coin : Coin, coin.value = ctx.worth (r.amount a) →
      ((if coin.isNil then pure ⟨denom, some n⟩
        else ofOption (Coin.add ⟨denom, some n⟩ ⟨denom, coin.amount⟩) .panic : Keeper Coin) s =
          .ok total s' ↔
        (n + ctx.worth (r.amount a)).natAbs < 2 ^ 256 ∧
          total = ⟨denom, some (n + ctx.worth (r.amount a))⟩ ∧ s' = s) := by
    intro coin hvalue
    cases hnil : coin.isNil with
    | true =>
      have hzero : ctx.worth (r.amount a) = 0 := hvalue ▸ Coin.value_of_isNil hnil
      rw [if_pos rfl, pure_ok, hzero, add_zero]
      exact ⟨fun h => ⟨hn, h.1.symm, h.2.symm⟩, fun h => ⟨h.2.1.symm, h.2.2.symm⟩⟩
    | false =>
      have hsome : coin.amount = some (ctx.worth (r.amount a)) := by
        unfold Coin.isNil at hnil
        unfold Coin.value at hvalue
        cases hx : coin.amount with
        | none =>
          rw [hx] at hnil
          cases hnil
        | some x =>
          rw [hx] at hvalue
          exact congrArg some hvalue
      rw [if_neg Bool.false_ne_true, hsome, ofOption_ok, Coin.add, if_neg (not_not.mpr rfl),
        Option.bind_some, Option.bind_some]
      split
      · rename_i hfits
        rw [Option.some.injEq]
        exact ⟨fun h => ⟨hfits, h.1.symm, h.2.symm⟩, fun h => ⟨h.2.1.symm, h.2.2.symm⟩⟩
      · rename_i hfits
        exact ⟨fun h => (by cases h.1), fun h => absurd h.1 hfits⟩
  unfold addPart
  constructor
  · intro h
    obtain ⟨coin, t, hclaim, hrest⟩ := bind_ok.mp h
    obtain ⟨hamount, rfl⟩ := (getClaimable_ok hr).mp hclaim
    have hread := Context.Readable.of_claimable hne hend hamount
    obtain ⟨coin', hamount', hvalue⟩ := claimableAmount_readable hne hend hread
    rw [hamount] at hamount'
    cases hamount'
    exact ⟨hread, (hadd coin hvalue).mp hrest⟩
  · rintro ⟨hread, hrest⟩
    obtain ⟨coin, hamount, hvalue⟩ := claimableAmount_readable hne hend hread
    exact bind_ok.mpr ⟨coin, s, (getClaimable_ok hr).mpr ⟨hamount, rfl⟩, (hadd coin hvalue).mpr hrest⟩

/-- The sum of what is claimable of a record. -/
def ClaimRecord.worth (ctx : Context) (r : ClaimRecord) : ℤ :=
  (allActions.map fun a => ctx.worth (r.amount a)).sum

/-- **Where there is a total**, it is the sum. -/
theorem getUserTotalClaimable_ok (hr : getClaimRecord address chain s = r)
    (hne : r.isEmpty = false) (hend : ¬ctx.Ended) {total : Coin} :
    getUserTotalClaimable ctx address chain s = .ok total s' ↔
      validateDenom r.amountClaim.denom = true ∧ (∀ a, ctx.Readable (r.amount a)) ∧ r.Fits ctx ∧
        total = ⟨r.amountClaim.denom, some (r.worth ctx)⟩ ∧ s' = s := by
  have hworth : r.worth ctx =
      ctx.worth r.amountClaim + ctx.worth r.amountVote + ctx.worth r.amountDelegate := by
    change ctx.worth r.amountClaim + (ctx.worth r.amountVote + (ctx.worth r.amountDelegate + 0)) = _
    omega
  have hfold : getUserTotalClaimable ctx address chain s =
      (ofOption (newCoin r.amountClaim.denom 0) .panic >>= fun zero =>
        addPart ctx address chain zero .claim >>= fun t₁ =>
          addPart ctx address chain t₁ .vote >>= fun t₂ =>
            addPart ctx address chain t₂ .delegate >>= fun t₃ => pure t₃) s := by
    unfold getUserTotalClaimable
    rw [reading_bind, hr, hne, if_neg Bool.false_ne_true]
    rfl
  rw [hfold, hworth, ofOption_bind_ok]
  simp only [newCoin_eq]
  constructor
  · rintro ⟨zero, hzero, h⟩
    split at hzero
    · rename_i hdenom
      cases hzero
      obtain ⟨_, _, hclaim, hrest⟩ := bind_ok.mp h
      obtain ⟨hr₁, hf₁, rfl, rfl⟩ := (addPart_ok hr hne hend (by decide)).mp hclaim
      obtain ⟨_, _, hvote, hrest'⟩ := bind_ok.mp hrest
      obtain ⟨hr₂, hf₂, rfl, rfl⟩ := (addPart_ok hr hne hend hf₁).mp hvote
      obtain ⟨_, _, hdelegate, hend'⟩ := bind_ok.mp hrest'
      obtain ⟨hr₃, hf₃, rfl, rfl⟩ := (addPart_ok hr hne hend hf₂).mp hdelegate
      obtain ⟨rfl, rfl⟩ := pure_ok.mp hend'
      rw [zero_add] at hf₁ hf₂ hf₃ ⊢
      refine ⟨hdenom.1, ?_, ⟨hf₁, hf₂, hf₃⟩, rfl, rfl⟩
      intro a
      cases a with
      | claim => exact hr₁
      | vote => exact hr₂
      | delegate => exact hr₃
    · cases hzero
  · rintro ⟨hdenom, hread, ⟨hf₁, hf₂, hf₃⟩, rfl, rfl⟩
    refine ⟨_, if_pos ⟨hdenom, le_rfl⟩, ?_⟩
    refine bind_ok.mpr ⟨⟨r.amountClaim.denom, some (ctx.worth r.amountClaim)⟩, s',
      (addPart_ok hr hne hend (by decide)).mpr ⟨hread .claim, ?_, ?_, rfl⟩, ?_⟩
    · rw [zero_add]
      exact hf₁
    · rw [zero_add]
      rfl
    refine bind_ok.mpr ⟨_, s', (addPart_ok hr hne hend hf₁).mpr ⟨hread .vote, hf₂, rfl, rfl⟩, ?_⟩
    exact bind_ok.mpr
      ⟨_, s', (addPart_ok hr hne hend hf₂).mpr ⟨hread .delegate, hf₃, rfl, rfl⟩, rfl⟩

/-! ## One payment after the other -/

/-- `ClaimCoinsForAction` for some actions, one after the other. -/
def claimAll (env : Env) (ctx : Context) (address : String) : List Action → Keeper (List Coin)
  | [] => pure []
  | action :: actions => do
    let coin ← claimCoinsForAction env ctx address action
    let coins ← claimAll env ctx address actions
    pure (coin :: coins)

/-- What is claimable of a coin is a coin that the bank pays to the address. -/
structure Context.Payout (env : Env) (ctx : Context) (address : String) (c : Coin) : Prop where
  denom : validateDenom c.denom = true
  nonneg : 0 ≤ ctx.worth c
  account : ∃ account,
    env.accAddressFromBech32 address = some account ∧ env.blockedAddr account = false

/-- The record is not taken for empty before the action is paid: its amount counts, or another
does that is worth nothing and stays. -/
def ClaimRecord.Stays (ctx : Context) (r : ClaimRecord) (a : Action) : Prop :=
  counts (r.amount a) = true ∨ ∃ b, counts (r.amount b) = true ∧ ctx.worth (r.amount b) = 0

/-- The record after an action was paid: its amount is wiped out, unless it was worth nothing. -/
def ClaimRecord.after (ctx : Context) (r : ClaimRecord) (a : Action) : ClaimRecord :=
  if ctx.worth (r.amount a) = 0 then r else (r.setAmount a {}).stored

theorem ClaimRecord.after_amount (hst : r.stored = r)
    (h : b ≠ a ∨ ctx.worth (r.amount a) = 0) : (r.after ctx a).amount b = r.amount b := by
  unfold after
  split
  · rfl
  rename_i hw
  have hkeep : (r.setAmount a {}).amount b = r.amount b := by
    have hne := h.resolve_right hw
    cases a <;> cases b <;> first | rfl | exact absurd rfl hne
  have hstored := congrArg Coin.stored hkeep
  rw [stored_amount hst] at hstored
  rw [← hstored]
  cases b <;> rfl

theorem ClaimRecord.after_address : (r.after ctx a).address = r.address := by
  unfold after
  split
  · rfl
  · exact r.setAmount_address a {}

theorem ClaimRecord.after_stored (hst : r.stored = r) : (r.after ctx a).stored = r.after ctx a := by
  unfold after
  split
  · exact hst
  · rfl

/-- The bank after a payment. -/
theorem Store.paid_bal (account : Bytes) (coin : Coin) (d : String) :
    (s.paid r address account coin a).bank.bal .module d =
      s.bank.bal .module d - if coin.denom = d then coin.value else 0 := by
  change (s.bank.move .module (.user account) coin.denom coin.value).bal .module d = _
  have hother : ¬(Holder.module = .user account ∧ d = coin.denom) := fun h => nomatch h.1
  rw [Ledger.bal_move, if_neg hother, add_zero]
  simp only [true_and, eq_comm (a := d)]

/-- **One payment**: nothing is worth nothing, or the amount is paid and wiped out. -/
theorem claimCoinsForAction_pays (hk : s.Kept env) (hend : ¬ctx.Ended)
    (hr : getClaimRecord address .arkeo s = r) (hread : ctx.Readable (r.amount a))
    (hpay : ctx.worth (r.amount a) ≠ 0 → r.isEmpty = false ∧ ctx.Payout env address (r.amount a) ∧
      ctx.worth (r.amount a) ≤ s.bank.bal .module (r.amount a).denom) :
    ∃ coin s', claimCoinsForAction env ctx address a s = .ok coin s' ∧
      coin.value = ctx.worth (r.amount a) ∧ s'.Kept env ∧
      (∀ d, s'.bank.bal .module d =
        s.bank.bal .module d - if (r.amount a).denom = d then ctx.worth (r.amount a) else 0) ∧
      getClaimRecord address .arkeo s' = r.after ctx a := by
  unfold ClaimRecord.after
  by_cases hw : ctx.worth (r.amount a) = 0
  · have hclaim : ∃ coin, claimableAmount ctx r a = .ok coin ∧ coin.value = 0 := by
      cases he : r.isEmpty with
      | true => exact ⟨{}, claimableAmount_nothing (.inl he), rfl⟩
      | false =>
        obtain ⟨coin, hcoin, hvalue⟩ := claimableAmount_readable he hend hread
        exact ⟨coin, hcoin, hvalue.trans hw⟩
    obtain ⟨coin, hcoin, hvalue⟩ := hclaim
    refine ⟨coin, s, claimCoinsForAction_nothing hr hcoin hvalue, hvalue.trans hw.symm, hk, ?_, ?_⟩
    · intro d
      rw [hw, ite_self, sub_zero]
    · rw [if_pos hw, hr]
  · obtain ⟨hne, ⟨hdenom, hpos, account, haccount, hblocked⟩, hfund⟩ := hpay hw
    obtain ⟨hs, hv⟩ := Context.started_of_worth hw
    have hcomputes := (hread hs).resolve_left hv
    have hclaim := (claimableAmount_running ⟨hs, hend⟩ hne hv).mpr ⟨hcomputes, rfl⟩
    have hpays : s.Pays env address account ⟨(r.amount a).denom, some (ctx.worth (r.amount a))⟩ :=
      ⟨Coin.isValid_iff.mpr ⟨hdenom, hpos⟩, haccount, hblocked, hfund⟩
    have hrun := (claimCoinsForAction_ok hk hr hclaim hw).mpr ⟨account, hpays, rfl, rfl⟩
    refine ⟨_, _, hrun, rfl, ?_, fun d => Store.paid_bal account _ d, ?_⟩
    · have hkept : (finalStore (claimCoinsForAction env ctx address a s)).Kept env :=
        claimCoinsForAction_kept address a s hk
      rw [hrun] at hkept
      exact hkept
    · obtain ⟨hkey, -⟩ := hk.of_not_isEmpty (hr ▸ hne)
      rw [hr] at hkey
      unfold Store.paid
      rw [getClaimRecord_put, r.setAmount_address, r.setAmount_chain, hkey, if_pos rfl, if_neg hw]

/-- What is claimable for some actions in a denomination. -/
def ClaimRecord.due (ctx : Context) (r : ClaimRecord) (d : String) (actions : List Action) : ℤ :=
  (actions.map fun a => if (r.amount a).denom = d then ctx.worth (r.amount a) else 0).sum

/-- An action can be paid whatever was paid before. -/
structure ClaimRecord.Pays (env : Env) (ctx : Context) (address : String) (r : ClaimRecord)
    (a : Action) : Prop where
  readable : ctx.Readable (r.amount a)
  payout : ctx.worth (r.amount a) ≠ 0 → ctx.Payout env address (r.amount a)
  stays : ctx.worth (r.amount a) ≠ 0 → r.Stays ctx a

theorem ClaimRecord.Pays.nonneg (h : r.Pays env ctx address a) : 0 ≤ ctx.worth (r.amount a) := by
  by_cases hw : ctx.worth (r.amount a) = 0
  · exact hw.ge
  · exact (h.payout hw).nonneg

/-- Paying an action leaves the others as they were. -/
theorem ClaimRecord.Pays.after (hst : r.stored = r) (hne : b ≠ a)
    (h : r.Pays env ctx address b) : (r.after ctx a).Pays env ctx address b := by
  have hb : (r.after ctx a).amount b = r.amount b := after_amount hst (.inl hne)
  obtain ⟨hread, hpayout, hstays⟩ := h
  refine ⟨hb ▸ hread, hb ▸ hpayout, ?_⟩
  rw [hb]
  intro hw
  rcases hstays hw with hcounts | ⟨c, hcounts, hc⟩
  · exact .inl (hb ▸ hcounts)
  · -- an amount that is worth nothing is not wiped out
    have hkeep : (r.after ctx a).amount c = r.amount c := by
      refine after_amount hst ?_
      by_cases hca : c = a
      · exact .inr (hca ▸ hc)
      · exact .inl hca
    exact .inr ⟨c, hkeep ▸ hcounts, hkeep ▸ hc⟩

theorem ClaimRecord.Stays.not_isEmpty (h : r.Stays ctx a) (haddr : r.address ≠ "") :
    r.isEmpty = false := by
  rcases h with hcounts | ⟨b, hcounts, -⟩
  · exact isEmpty_eq_false.mpr ⟨haddr, a, hcounts⟩
  · exact isEmpty_eq_false.mpr ⟨haddr, b, hcounts⟩

theorem ClaimRecord.due_cons {actions : List Action} (d : String) :
    r.due ctx d (a :: actions) =
      (if (r.amount a).denom = d then ctx.worth (r.amount a) else 0) + r.due ctx d actions :=
  List.sum_cons

/-- What is due for an action that can be paid is no debt. -/
theorem ClaimRecord.parts_nonneg {actions : List Action}
    (h : ∀ a ∈ actions, r.Pays env ctx address a) (d : String) :
    ∀ x ∈ actions.map fun a => if (r.amount a).denom = d then ctx.worth (r.amount a) else 0,
      0 ≤ x := by
  intro x hx
  obtain ⟨b, hb, rfl⟩ := List.mem_map.mp hx
  split
  · exact (h b hb).nonneg
  · exact le_rfl

theorem ClaimRecord.due_nonneg {actions : List Action}
    (h : ∀ a ∈ actions, r.Pays env ctx address a) (d : String) : 0 ≤ r.due ctx d actions :=
  List.sum_nonneg (parts_nonneg h d)

/-- What one action is worth is part of what is due. -/
theorem ClaimRecord.worth_le_due {actions : List Action}
    (h : ∀ b ∈ actions, r.Pays env ctx address b) (ha : a ∈ actions) :
    ctx.worth (r.amount a) ≤ r.due ctx (r.amount a).denom actions :=
  List.single_le_sum (parts_nonneg h _) _ (List.mem_map.mpr ⟨a, ha, if_pos rfl⟩)

/-- Paying one action leaves what is due for the others. -/
theorem ClaimRecord.due_after {actions : List Action} (hst : r.stored = r) (h : a ∉ actions)
    (d : String) : (r.after ctx a).due ctx d actions = r.due ctx d actions := by
  refine congrArg List.sum (List.map_congr_left ?_)
  intro b hb
  have hne : b ≠ a := fun hba => h (hba ▸ hb)
  have hsame : (r.after ctx a).amount b = r.amount b := after_amount hst (.inl hne)
  rw [hsame]

/-- **Payments in a row**: every action is paid what is claimable for it. -/
theorem claimAll_pays {actions : List Action} (hnodup : actions.Nodup) (hk : s.Kept env)
    (hend : ¬ctx.Ended) (hr : getClaimRecord address .arkeo s = r) (haddr : r.address ≠ "")
    (hst : r.stored = r) (hpays : ∀ a ∈ actions, r.Pays env ctx address a)
    (hfund : ∀ a ∈ actions, ctx.worth (r.amount a) ≠ 0 →
      r.due ctx (r.amount a).denom actions ≤ s.bank.bal .module (r.amount a).denom) :
    ∃ coins s', claimAll env ctx address actions s = .ok coins s' ∧
      (coins.map Coin.value).sum = (actions.map fun a => ctx.worth (r.amount a)).sum := by
  induction actions generalizing s r with
  | nil => exact ⟨[], s, rfl, rfl⟩
  | cons a actions ih =>
    obtain ⟨hnotmem, hnodup⟩ := List.nodup_cons.mp hnodup
    obtain ⟨hpay, hrest⟩ := List.forall_mem_cons.mp hpays
    have hafford : ctx.worth (r.amount a) ≠ 0 →
        ctx.worth (r.amount a) ≤ s.bank.bal .module (r.amount a).denom := by
      intro hw
      have hle := hfund a (List.mem_cons_self ..) hw
      rw [ClaimRecord.due_cons, if_pos rfl] at hle
      have := ClaimRecord.due_nonneg hrest (r.amount a).denom
      omega
    obtain ⟨coin, t, hclaim, hvalue, hkt, hbal, hrt⟩ := claimCoinsForAction_pays hk hend hr
      hpay.readable fun hw => ⟨(hpay.stays hw).not_isEmpty haddr, hpay.payout hw, hafford hw⟩
    -- the other amounts are as they were, and enough is left for them
    have hne : ∀ b ∈ actions, b ≠ a := fun b hb hba => hnotmem (hba ▸ hb)
    have hsame : ∀ b ∈ actions, (r.after ctx a).amount b = r.amount b :=
      fun b hb => ClaimRecord.after_amount hst (.inl (hne b hb))
    have hfund' : ∀ b ∈ actions, ctx.worth ((r.after ctx a).amount b) ≠ 0 →
        (r.after ctx a).due ctx ((r.after ctx a).amount b).denom actions ≤
          t.bank.bal .module ((r.after ctx a).amount b).denom := by
      intro b hb hw
      rw [hsame b hb] at hw ⊢
      have hle := hfund b (List.mem_cons_of_mem a hb) hw
      rw [ClaimRecord.due_cons] at hle
      rw [ClaimRecord.due_after hst hnotmem, hbal]
      omega
    obtain ⟨coins, t', hall, hsum⟩ := ih hnodup hkt hrt (ClaimRecord.after_address.trans_ne haddr)
      (ClaimRecord.after_stored hst) (fun b hb => (hrest b hb).after hst (hne b hb)) hfund'
    have heq : actions.map (fun b => ctx.worth ((r.after ctx a).amount b)) =
        actions.map fun b => ctx.worth (r.amount b) := by
      refine List.map_congr_left ?_
      intro b hb
      rw [hsame b hb]
    refine ⟨coin :: coins, t', bind_ok.mpr ⟨coin, t, hclaim, bind_ok.mpr ⟨coins, t', hall, rfl⟩⟩, ?_⟩
    rw [List.map_cons, List.sum_cons, List.map_cons, List.sum_cons, hsum, heq, hvalue]

/-! ## What has to be so

The other way round, an action that is paid in every order can be paid first and can be paid
last. -/

/-- A payment that succeeds is no more than what is claimable, and keeps no amount that it has
paid. -/
theorem claimCoinsForAction_inv (hk : s.Kept env) (hend : ¬ctx.Ended)
    (hr : getClaimRecord address .arkeo s = r) (haddr : r.address ≠ "") (hst : r.stored = r)
    (hpos : 0 ≤ ctx.worth (r.amount a)) {coin : Coin}
    (h : claimCoinsForAction env ctx address a s = .ok coin s') :
    ∃ r', getClaimRecord address .arkeo s' = r' ∧ s'.Kept env ∧ r'.address ≠ "" ∧ r'.stored = r' ∧
      coin.value ≤ ctx.worth (r.amount a) ∧
      (∀ b, r'.amount b = r.amount b ∨ (r'.amount b).value = 0) ∧
      (ClaimRecord.counts (r'.amount a) = true → ctx.worth (r.amount a) = 0) := by
  have hclaim := claimCoinsForAction_claimable h
  rw [hr] at hclaim
  cases he : r.isEmpty with
  | true =>
    rw [claimableAmount_nothing (.inl he)] at hclaim
    cases hclaim
    rw [claimCoinsForAction_nothing hr (claimableAmount_nothing (.inl he)) rfl] at h
    cases h
    have hnone : ∀ b, ClaimRecord.counts (r.amount b) ≠ true := by
      intro b hb
      rw [ClaimRecord.isEmpty_eq_false.mpr ⟨haddr, b, hb⟩] at he
      cases he
    exact ⟨r, hr, hk, haddr, hst, hpos, fun b => .inl rfl, fun hb => absurd hb (hnone a)⟩
  | false =>
    have hread := Context.Readable.of_claimable he hend hclaim
    obtain ⟨coin', hclaim', hvalue⟩ := claimableAmount_readable he hend hread
    rw [hclaim] at hclaim'
    cases hclaim'
    refine ⟨r.after ctx a, ?_⟩
    by_cases hw : ctx.worth (r.amount a) = 0
    · rw [claimCoinsForAction_nothing hr hclaim (hvalue.trans hw)] at h
      cases h
      have hafter : r.after ctx a = r := if_pos hw
      rw [hafter]
      exact ⟨hr, hk, haddr, hst, hvalue.le, fun b => .inl rfl, fun _ => hw⟩
    · obtain ⟨account, hpays, -⟩ :=
        (claimCoinsForAction_ok hk hr hclaim (by rw [hvalue]; exact hw)).mp h
      obtain ⟨hs, hv⟩ := Context.started_of_worth hw
      obtain ⟨-, rfl⟩ := (claimableAmount_running ⟨hs, hend⟩ he hv).mp hclaim
      have hdenom := (Coin.isValid_iff.mp hpays.valid).1
      obtain ⟨_, t, hrun, -, hkt, -, hrt⟩ := claimCoinsForAction_pays hk hend hr hread fun _ =>
        ⟨he, ⟨hdenom, hpos, account, hpays.account_eq, hpays.unblocked⟩, hpays.funded⟩
      rw [h] at hrun
      cases hrun
      have hgone : ((r.after ctx a).amount a).value = 0 := by
        unfold ClaimRecord.after
        rw [if_neg hw]
        cases a <;> rfl
      refine ⟨hrt, hkt, ClaimRecord.after_address.trans_ne haddr, ClaimRecord.after_stored hst, le_rfl,
        ?_, fun ha => absurd hgone (ClaimRecord.value_of_counts ha)⟩
      intro b
      by_cases hba : b = a
      · exact .inr (hba ▸ hgone)
      · exact .inl (ClaimRecord.after_amount hst (.inl hba))

/-- **Payments in a row were funded**: what they paid of a denomination was there before the
first of them. -/
theorem claimAll_funded {actions : List Action} (hnodup : actions.Nodup) (hk : s.Kept env)
    (hend : ¬ctx.Ended) (hr : getClaimRecord address .arkeo s = r) (haddr : r.address ≠ "")
    (hst : r.stored = r) (hpays : ∀ a ∈ actions, r.Pays env ctx address a) {coins : List Coin}
    (h : claimAll env ctx address actions s = .ok coins s') {d : String}
    (hdue : r.due ctx d actions ≠ 0) : r.due ctx d actions ≤ s.bank.bal .module d := by
  induction actions generalizing s r coins s' with
  | nil => exact absurd rfl hdue
  | cons a actions ih =>
    obtain ⟨hnotmem, hnodup⟩ := List.nodup_cons.mp hnodup
    obtain ⟨hpay, hrest⟩ := List.forall_mem_cons.mp hpays
    obtain ⟨coin, t, hclaim, hrun⟩ := bind_ok.mp h
    obtain ⟨others, t', hothers, -⟩ := bind_ok.mp hrun
    have hfunded : ctx.worth (r.amount a) ≠ 0 →
        ctx.worth (r.amount a) ≤ s.bank.bal .module (r.amount a).denom := by
      intro hw
      obtain ⟨hs, hv⟩ := Context.started_of_worth hw
      have hamount := claimCoinsForAction_claimable hclaim
      rw [hr] at hamount
      obtain ⟨-, rfl⟩ := (claimableAmount_running ⟨hs, hend⟩
        ((hpay.stays hw).not_isEmpty haddr) hv).mp hamount
      obtain ⟨account, hfirst, -⟩ := (claimCoinsForAction_ok hk hr hamount hw).mp hclaim
      exact hfirst.funded
    obtain ⟨_, _, hpaid, -, hkt, hbal, hrt⟩ := claimCoinsForAction_pays hk hend hr
      hpay.readable fun hw => ⟨(hpay.stays hw).not_isEmpty haddr, hpay.payout hw, hfunded hw⟩
    rw [hclaim] at hpaid
    cases hpaid
    rw [ClaimRecord.due_cons] at hdue ⊢
    by_cases hlater : r.due ctx d actions = 0
    · -- only this action is paid in the denomination
      rw [hlater, add_zero] at hdue ⊢
      split at hdue
      · rename_i hdenom
        rw [if_pos hdenom]
        exact hdenom ▸ hfunded hdue
      · exact absurd rfl hdue
    · have hleft := ih hnodup hkt hrt (ClaimRecord.after_address.trans_ne haddr)
        (ClaimRecord.after_stored hst)
        (fun b hb => (hrest b hb).after hst fun hba => hnotmem (hba ▸ hb)) hothers
        (ClaimRecord.due_after hst hnotmem d ▸ hlater)
      rw [ClaimRecord.due_after hst hnotmem, hbal] at hleft
      omega

/-- An action that is paid first can be paid. -/
theorem Context.Payout.of_claim (hk : s.Kept env) (hend : ¬ctx.Ended)
    (hr : getClaimRecord address .arkeo s = r) (hne : r.isEmpty = false)
    (hw : ctx.worth (r.amount a) ≠ 0) {coin : Coin}
    (h : claimCoinsForAction env ctx address a s = .ok coin s') :
    ctx.Payout env address (r.amount a) := by
  obtain ⟨hs, hv⟩ := started_of_worth hw
  have hclaim := claimCoinsForAction_claimable h
  rw [hr] at hclaim
  obtain ⟨-, rfl⟩ := (claimableAmount_running ⟨hs, hend⟩ hne hv).mp hclaim
  obtain ⟨account, hpays, -⟩ := (claimCoinsForAction_ok hk hr hclaim hw).mp h
  obtain ⟨hdenom, hpos⟩ := Coin.isValid_iff.mp hpays.valid
  exact ⟨hdenom, hpos, account, hpays.account_eq, hpays.unblocked⟩

/-- An action that is paid in full as the last of three is not left alone with a record that
is taken for empty. -/
theorem ClaimRecord.Stays.of_claimAll (hk : s.Kept env) (hend : ¬ctx.Ended)
    (hr : getClaimRecord address .arkeo s = r) (haddr : r.address ≠ "") (hst : r.stored = r)
    (hpos : ∀ a, 0 ≤ ctx.worth (r.amount a)) {c : Action} (hall : ∀ x, x = a ∨ x = b ∨ x = c)
    (hw : ctx.worth (r.amount c) ≠ 0) {coins : List Coin}
    (h : claimAll env ctx address [a, b, c] s = .ok coins s')
    (hsum : (coins.map Coin.value).sum =
      ctx.worth (r.amount a) + ctx.worth (r.amount b) + ctx.worth (r.amount c)) : r.Stays ctx c := by
  obtain ⟨ca, s₁, ha, hrest⟩ := bind_ok.mp h
  obtain ⟨cs₁, t₁, hrest₁, hp₁⟩ := bind_ok.mp hrest
  obtain ⟨cb, s₂, hb, hrest₂⟩ := bind_ok.mp hrest₁
  obtain ⟨cs₂, t₂, hrest₃, hp₂⟩ := bind_ok.mp hrest₂
  obtain ⟨cc, s₃, hc, hrest₄⟩ := bind_ok.mp hrest₃
  obtain ⟨cs₃, t₃, hnil, hp₃⟩ := bind_ok.mp hrest₄
  obtain ⟨rfl, -⟩ := pure_ok.mp hnil
  obtain ⟨rfl, -⟩ := pure_ok.mp hp₃
  obtain ⟨rfl, -⟩ := pure_ok.mp hp₂
  obtain ⟨rfl, -⟩ := pure_ok.mp hp₁
  obtain ⟨r₁, hr₁, hk₁, haddr₁, hst₁, hle₁, hkeep₁, hgone₁⟩ :=
    claimCoinsForAction_inv hk hend hr haddr hst (hpos a) ha
  have hworth₁ : 0 ≤ ctx.worth (r₁.amount b) ∧ ctx.worth (r₁.amount b) ≤ ctx.worth (r.amount b) := by
    rcases hkeep₁ b with hsame | hzero
    · rw [hsame]
      exact ⟨hpos b, le_rfl⟩
    · rw [Context.worth_of_value hzero]
      exact ⟨le_rfl, hpos b⟩
  obtain ⟨r₂, hr₂, hk₂, haddr₂, hst₂, hle₂, hkeep₂, hgone₂⟩ :=
    claimCoinsForAction_inv hk₁ hend hr₁ haddr₁ hst₁ hworth₁.1 hb
  by_contra hstays
  -- what counts was there before
  have hback : ∀ {r r' : ClaimRecord} {x : Action}, (r'.amount x = r.amount x ∨ (r'.amount x).value = 0) →
      counts (r'.amount x) = true → r'.amount x = r.amount x :=
    fun hkeep hcounts => hkeep.resolve_right (value_of_counts hcounts)
  have hempty : r₂.isEmpty = true := by
    by_contra hne
    obtain ⟨-, x, hx⟩ := isEmpty_eq_false.mp (by simpa using hne)
    have hx₂ := hback (hkeep₂ x) hx
    have hx₁ := hback (hkeep₁ x) (hx₂ ▸ hx)
    have hcounts : counts (r.amount x) = true := hx₁ ▸ hx₂ ▸ hx
    rcases hall x with rfl | rfl | rfl
    · exact hstays (.inr ⟨x, hcounts, hgone₁ (hx₂ ▸ hx)⟩)
    · exact hstays (.inr ⟨x, hcounts, hx₁ ▸ hgone₂ hx⟩)
    · exact hstays (.inl hcounts)
  have hnothing := claimCoinsForAction_claimable hc
  rw [hr₂, claimableAmount_nothing (.inl hempty)] at hnothing
  cases hnothing
  have hlast := hpos c
  change ca.value + (cb.value + (0 + 0)) = _ at hsum
  omega

/-! ## The total, the parts and the payments -/

/-- The total is the sum of what is claimable for the actions, and of what they are paid in
any order. -/
def TotalAgrees (env : Env) (ctx : Context) (s : Store) (address : String) (chain : Chain) : Prop :=
  ∃ total, getUserTotalClaimable ctx address chain s = .ok total s ∧
    (∃ part : Action → Coin,
      (∀ a, getClaimableAmountForAction ctx address a chain s = .ok (part a) s) ∧
        total.value = (allActions.map fun a => (part a).value).sum) ∧
    (chain = .arkeo → ∀ actions, actions.Perm allActions → ∃ coins s',
      claimAll env ctx address actions s = .ok coins s' ∧
        (coins.map Coin.value).sum = total.value)

/-- The condition for that: the denomination of the claim amount is valid, every part can be
read and the sum fits, and every part can be paid, with the coins that the module has in `s`. -/
structure Totals (env : Env) (ctx : Context) (s : Store) (address : String) (chain : Chain)
    (r : ClaimRecord) : Prop where
  denom : validateDenom r.amountClaim.denom = true
  readable : ∀ a, ctx.Readable (r.amount a)
  fits : r.Fits ctx
  pays : chain = .arkeo → ∀ a, r.Pays env ctx address a
  funded : chain = .arkeo → ∀ a, ctx.worth (r.amount a) ≠ 0 →
    r.due ctx (r.amount a).denom allActions ≤ s.bank.bal .module (r.amount a).denom

/-- The orders in which an action comes first and last. -/
theorem Action.orders (a : Action) : ∃ b c, [a, b, c].Perm allActions ∧ [b, c, a].Perm allActions ∧
    ∀ x, x = b ∨ x = c ∨ x = a := by
  cases a with
  | claim => exact ⟨.vote, .delegate, by decide, by decide, fun x => by cases x <;> simp⟩
  | vote => exact ⟨.claim, .delegate, by decide, by decide, fun x => by cases x <;> simp⟩
  | delegate => exact ⟨.claim, .vote, by decide, by decide, fun x => by cases x <;> simp⟩

/-- Of an empty record nothing is paid. -/
theorem claimAll_nothing (hr : getClaimRecord address .arkeo s = r) (he : r.isEmpty = true)
    (actions : List Action) : ∃ coins, claimAll env ctx address actions s = .ok coins s ∧
      (coins.map Coin.value).sum = 0 := by
  induction actions with
  | nil => exact ⟨[], rfl, rfl⟩
  | cons a actions ih =>
    obtain ⟨coins, hall, hsum⟩ := ih
    have hclaim : claimCoinsForAction env ctx address a s = .ok {} s :=
      claimCoinsForAction_nothing hr (claimableAmount_nothing (.inl he)) rfl
    refine ⟨{} :: coins, bind_ok.mpr ⟨{}, s, hclaim, bind_ok.mpr ⟨coins, s, hall, rfl⟩⟩, ?_⟩
    rw [List.map_cons, List.sum_cons, hsum]
    rfl

theorem TotalAgrees.of_isEmpty (hr : getClaimRecord address chain s = r) (he : r.isEmpty = true) :
    TotalAgrees env ctx s address chain := by
  refine ⟨{}, ?_, ⟨fun _ => {}, ?_, rfl⟩, ?_⟩
  · unfold getUserTotalClaimable
    rw [reading_bind, hr, he]
    rfl
  · intro a
    exact (getClaimable_ok hr).mpr ⟨claimableAmount_nothing (.inl he), rfl⟩
  · rintro rfl actions -
    obtain ⟨coins, hall, hsum⟩ : ∃ coins, claimAll env ctx address actions s = .ok coins s ∧
        (coins.map Coin.value).sum = 0 := claimAll_nothing hr he actions
    exact ⟨coins, s, hall, hsum⟩

theorem Totals.agrees (hk : s.Kept env) (hend : ¬ctx.Ended) (hr : getClaimRecord address chain s = r)
    (hne : r.isEmpty = false) (h : Totals env ctx s address chain r) :
    TotalAgrees env ctx s address chain := by
  refine ⟨_, (getUserTotalClaimable_ok hr hne hend).mpr ⟨h.denom, h.readable, h.fits, rfl, rfl⟩, ?_, ?_⟩
  · choose part hpart hvalue using fun a => claimableAmount_readable hne hend (h.readable a)
    refine ⟨part, fun a => (getClaimable_ok hr).mpr ⟨hpart a, rfl⟩, ?_⟩
    exact congrArg List.sum (List.map_congr_left fun a _ => (hvalue a).symm)
  · rintro rfl actions hperm
    obtain ⟨-, -, hst⟩ := hk.of_not_isEmpty (hr ▸ hne)
    rw [hr] at hst
    have haddr := (ClaimRecord.isEmpty_eq_false.mp hne).1
    have hnodup : actions.Nodup := hperm.nodup_iff.mpr (by decide)
    obtain ⟨coins, s', hall, hsum⟩ := claimAll_pays hnodup hk hend hr haddr hst
      (fun a _ => h.pays rfl a) fun a _ hw => by
        unfold ClaimRecord.due
        rw [(hperm.map _).sum_eq]
        exact h.funded rfl a hw
    exact ⟨coins, s', hall, hsum.trans (hperm.map _).sum_eq⟩

/-- Where the payments in any order come to the total, every action can be paid. -/
theorem ClaimRecord.Pays.of_agrees (hk : s.Kept env) (hend : ¬ctx.Ended)
    (hr : getClaimRecord address .arkeo s = r) (hne : r.isEmpty = false)
    (hread : ∀ a, ctx.Readable (r.amount a))
    (hpaid : ∀ actions, actions.Perm allActions → ∃ coins s',
      claimAll env ctx address actions s = .ok coins s' ∧
        (coins.map Coin.value).sum = r.worth ctx) (a : Action) : r.Pays env ctx address a := by
  obtain ⟨-, -, hst⟩ := hk.of_not_isEmpty (hr ▸ hne)
  rw [hr] at hst
  have haddr := (ClaimRecord.isEmpty_eq_false.mp hne).1
  have hfirst : ∀ a, ctx.worth (r.amount a) ≠ 0 → ctx.Payout env address (r.amount a) := by
    intro a hw
    obtain ⟨b, c, hperm, -, -⟩ := a.orders
    obtain ⟨coins, s', hall, -⟩ := hpaid _ hperm
    obtain ⟨coin, t, hclaim, -⟩ := bind_ok.mp hall
    exact .of_claim hk hend hr hne hw hclaim
  have hpos : ∀ a, 0 ≤ ctx.worth (r.amount a) := by
    intro a
    by_cases hw : ctx.worth (r.amount a) = 0
    · exact hw.ge
    · exact (hfirst a hw).nonneg
  refine ⟨hread a, hfirst a, ?_⟩
  intro hw
  obtain ⟨b, c, -, hperm, hall⟩ := a.orders
  obtain ⟨coins, s', hrun, hsum⟩ := hpaid _ hperm
  refine .of_claimAll hk hend hr haddr hst hpos hall hw hrun ?_
  have hworth := (hperm.map fun x => ctx.worth (r.amount x)).sum_eq
  rw [hsum]
  unfold ClaimRecord.worth
  rw [← hworth]
  simp only [List.map_cons, List.map_nil, List.sum_cons, List.sum_nil]
  omega

theorem Totals.of_agrees (hk : s.Kept env) (hend : ¬ctx.Ended)
    (hr : getClaimRecord address chain s = r) (hne : r.isEmpty = false)
    (h : TotalAgrees env ctx s address chain) : Totals env ctx s address chain r := by
  obtain ⟨total, htotal, -, hpaid⟩ := h
  obtain ⟨hdenom, hread, hfits, rfl, -⟩ := (getUserTotalClaimable_ok hr hne hend).mp htotal
  have hpays : chain = .arkeo → ∀ a, r.Pays env ctx address a := by
    rintro rfl
    exact ClaimRecord.Pays.of_agrees hk hend hr hne hread (hpaid rfl)
  refine ⟨hdenom, hread, hfits, hpays, ?_⟩
  rintro rfl a hw
  obtain ⟨-, -, hst⟩ := hk.of_not_isEmpty (hr ▸ hne)
  rw [hr] at hst
  obtain ⟨coins, s', hrun, -⟩ := hpaid rfl _ (List.Perm.refl _)
  refine claimAll_funded (by decide) hk hend hr (ClaimRecord.isEmpty_eq_false.mp hne).1 hst
    (fun b _ => hpays rfl b) hrun ?_
  -- the action itself is due
  have hself := ClaimRecord.worth_le_due (fun b _ => hpays rfl b)
    (show a ∈ allActions by cases a <;> decide)
  have := (hpays rfl a).nonneg
  omega

/-- **The total claimable.**  For every record that a run reaches, at every time before the end:
the total is the sum of the parts and of the payments in any order exactly if the record is
empty or meets the condition. -/
theorem totalClaimable_iff {bank : Ledger Holder String} {records : List ClaimRecord}
    (hgen : initGenesis env bank records = some s₀) {msgs : List Msg}
    (hrun : Runs.run (step env) (genesis s₀ ctx₀) msgs = some w) (hend : ¬ctx.Ended)
    (hr : getClaimRecord address chain w.store = r) :
    TotalAgrees env ctx w.store address chain ↔
      r.isEmpty = true ∨ Totals env ctx w.store address chain r := by
  have hk := reachable_kept hgen hrun
  cases he : r.isEmpty with
  | true => exact ⟨fun _ => .inl rfl, fun _ => .of_isEmpty hr he⟩
  | false =>
    refine ⟨fun h => .inr (.of_agrees hk hend hr he h), ?_⟩
    rintro (hempty | h)
    · cases hempty
    · exact h.agrees hk hend hr he

namespace Sample

/-- Half-way through the decay. -/
def halfway : Context := { Sample.ctx with blockTime := 150 }

/-- The holder's record, of which the vote was paid. -/
def voted : ClaimRecord :=
  { address := holder, amountClaim := coins 10, amountVote := ⟨"", some 0⟩
    amountDelegate := coins 3 }

/-- Half-way through the decay, five and one of the ten and three coins are left of the record
of a holder who has voted, in total and in payments. -/
theorem total_of_voted : ∃ s₀ w, initGenesis Sample.env bank records = some s₀ ∧
    Runs.run (step Sample.env) (genesis s₀ Sample.ctx) [.vote holder] = some w ∧
    TotalAgrees Sample.env halfway w.store holder .arkeo := by
  have h : ((initGenesis Sample.env bank records).bind fun s₀ =>
      (Runs.run (step Sample.env) (genesis s₀ Sample.ctx) [.vote holder]).map fun w =>
        (getClaimRecord holder .arkeo w.store, w.store.bank.bal .module defaultClaimDenom)) =
      some (voted, 995) := by decide +kernel
  obtain ⟨s₀, hs, h⟩ := Option.bind_eq_some_iff.mp h
  obtain ⟨w, hw, h⟩ := Option.map_eq_some_iff.mp h
  simp only [Prod.mk.injEq] at h
  obtain ⟨hr, hbal⟩ := h
  have hworth : halfway.worth (coins 10) = 5 ∧ halfway.worth ⟨"", some 0⟩ = 0 ∧
      halfway.worth (coins 3) = 1 := by decide +kernel
  have hpayout : ∀ c, c = coins 10 ∨ c = coins 3 → halfway.Payout Sample.env holder c := by
    rintro c (rfl | rfl)
    · exact ⟨by decide, by rw [hworth.1]; decide, _, rfl, rfl⟩
    · exact ⟨by decide, by rw [hworth.2.2]; decide, _, rfl, rfl⟩
  refine ⟨s₀, w, hs, hw, (totalClaimable_iff hs hw (by decide) hr).mpr (.inr ?_)⟩
  refine ⟨by decide, by intro a; cases a <;> decide +kernel, ?_, ?_, ?_⟩
  · exact ⟨by decide +kernel, by decide +kernel, by decide +kernel⟩
  · rintro - a
    cases a with
    | claim => exact ⟨by decide +kernel, fun _ => hpayout _ (.inl rfl), fun _ => .inl (by decide)⟩
    | vote => exact ⟨by decide +kernel, fun h => absurd hworth.2.1 h, fun h => absurd hworth.2.1 h⟩
    | delegate => exact ⟨by decide +kernel, fun _ => hpayout _ (.inr rfl), fun _ => .inl (by decide)⟩
  · have hdue : voted.due halfway defaultClaimDenom allActions = 6 := by decide +kernel
    rintro - a hw
    cases a with
    | vote => exact absurd hworth.2.1 hw
    | _ => exact hdue.trans_le (hbal.symm ▸ (by decide))

/-- **No total after the claim.**  Once the claim amount is paid the total panics, though five
and three coins are claimable for the vote and the delegation. -/
theorem no_total_after_claim : ∃ s₀ w, initGenesis Sample.env bank records = some s₀ ∧
    Runs.run (step Sample.env) (genesis s₀ Sample.ctx) [.claimArkeo holder] = some w ∧
    ¬w.ctx.Ended ∧
    getUserTotalClaimable w.ctx holder .arkeo w.store = .error .panic w.store ∧
    getClaimableAmountForAction w.ctx holder .vote .arkeo w.store = .ok (coins 5) w.store := by
  have h : ((initGenesis Sample.env bank records).bind fun s₀ =>
      (Runs.run (step Sample.env) (genesis s₀ Sample.ctx) [.claimArkeo holder]).map fun w =>
        (w.ctx, getClaimRecord holder .arkeo w.store)) =
      some (Sample.ctx, { record with amountClaim := ⟨"", some 0⟩ }) := by decide +kernel
  obtain ⟨s₀, hs, h⟩ := Option.bind_eq_some_iff.mp h
  obtain ⟨w, hw, h⟩ := Option.map_eq_some_iff.mp h
  simp only [Prod.mk.injEq] at h
  obtain ⟨hctx, hr⟩ := h
  refine ⟨s₀, w, hs, hw, ?_, ?_, ?_⟩
  · rw [hctx]
    decide
  · rw [hctx]
    unfold getUserTotalClaimable
    rw [reading_bind, hr]
    rfl
  · rw [hctx]
    exact (getClaimable_ok hr).mpr ⟨by decide, rfl⟩

end Sample

end Arkeo.Airdrop
