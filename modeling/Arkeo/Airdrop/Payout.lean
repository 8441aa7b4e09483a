import Arkeo.Airdrop.Ending

/-! # What an action is paid

The payment for an action, with all its failures: the records that are kept, what the bank
needs to pay a claim (`Context.Payable`), and when a claim succeeds.
-/
namespace Arkeo.Airdrop
open Exec LegacyDec

variable {env : Env} {ctx : Context} {s s' s₀ : Store} {w : World} {r : ClaimRecord} {a : Action}

/-! ## The records that are kept -/

/-- Every record is kept under its own key, with a valid address and no amount that is nil. -/
def Store.Kept (env : Env) (s : Store) : Prop :=
  ∀ k r, s.records.lookup k = some r →
    keyOf r.chain r.address = k ∧ env.isValidAddress r.address r.chain = true ∧ r.stored = r

theorem Store.Kept.put (h : s.Kept env) (hv : env.isValidAddress r.address r.chain = true) :
    (s.put r).Kept env := by
  intro k q hl
  unfold Store.put at hl
  by_cases hk : k = keyOf r.chain r.address
  · rw [hk, AList.lookup_insert] at hl
    cases hl
    exact ⟨hk.symm, hv, rfl⟩
  · rw [AList.lookup_insert_ne hk] at hl
    exact h k q hl

theorem setClaimRecord_kept (r : ClaimRecord) : Preserves (Store.Kept env) (setClaimRecord env r) :=
  .failIf fun hv => .writing fun _ h => h.put (by simpa using hv)

theorem claimCoinsForAction_kept (address : String) (a : Action) :
    Preserves (Store.Kept env) (claimCoinsForAction env ctx address a) := by
  refine (readOnly_getClaimable _ _ _ _).preserves.bind fun claimable => ?_
  split
  · exact (readOnly_pure _).preserves
  refine (readOnly_reading _).preserves.bind fun r => ?_
  refine (readOnly_ofOption _ _).preserves.bind fun account => ?_
  refine Preserves.bind (.failIf fun _ => .failIf fun _ => ?_) fun _ =>
    (setClaimRecord_kept _).bind fun _ => (readOnly_pure _).preserves
  exact (readOnly_reading _).preserves.bind fun balance => .failIf fun _ => .writing fun _ h => h

theorem endBlocker_kept (hk : s.Kept env) (h : committed (endBlocker ctx) s = some s') :
    s'.Kept env := by
  obtain ⟨_, hend⟩ := committed_some.mp h
  rw [endBlocker_eq] at hend
  split at hend
  · obtain ⟨_, t, hmove, hmark⟩ := bind_ok.mp hend
    obtain rfl := writing_ok.mp hmark
    obtain ⟨-, hmove⟩ := failIf_bind_ok.mp hmove
    rw [reading_bind] at hmove
    split at hmove
    · obtain ⟨-, rfl⟩ := pure_ok.mp hmove
      exact hk
    · obtain rfl := writing_ok.mp hmove
      exact hk
  · cases hend
    exact hk

theorem step_kept {w' : World} {m : Msg} (hk : w.store.Kept env) (h : step env w m = some w') :
    w'.store.Kept env := by
  by_cases hm : ∃ time, m = .nextBlock time
  · obtain ⟨time, rfl⟩ := hm
    rcases step_cases h with ⟨_, s, -, hend, rfl⟩ | ⟨s, hend, rfl⟩ | rfl
    · exact endBlocker_kept hk hend
    · exact endBlocker_kept hk hend
    · exact hk
  · have hm' : ∀ time, m ≠ .nextBlock time := fun time ht => hm ⟨time, ht⟩
    rcases (step_msg h hm').2 with hc | hsame
    · exact (handler_preserves setClaimRecord_kept claimCoinsForAction_kept hm').committed hk hc
    · rw [hsame]
      exact hk

/-- **The records of every run are kept.** -/
theorem reachable_kept {bank : Ledger Holder String} {records : List ClaimRecord}
    (hgen : initGenesis env bank records = some s₀) {msgs : List Msg}
    (hrun : Runs.run (step env) (genesis s₀ ctx) msgs = some w) : w.store.Kept env := by
  have hinit : s₀.Kept env := by
    obtain ⟨_, hloop⟩ := committed_some.mp hgen
    refine forEach_induct (P := fun _ t => t.Kept env) ?_ ?_ hloop
    · intro r l t t' ht hset
      obtain ⟨hv, rfl⟩ := setClaimRecord_ok.mp hset
      exact ht.put hv
    · intro k r hl
      cases hl
  exact Runs.run_induct (P := fun w => w.store.Kept env) (fun _ _ _ hk hs => step_kept hk hs) hinit hrun

/-- A record that is not empty is there. -/
theorem Store.Kept.of_not_isEmpty (h : s.Kept env) {address : String} {chain : Chain}
    (he : (getClaimRecord address chain s).isEmpty = false) :
    keyOf (getClaimRecord address chain s).chain (getClaimRecord address chain s).address =
      keyOf chain address ∧
    env.isValidAddress (getClaimRecord address chain s).address
      (getClaimRecord address chain s).chain = true ∧
    (getClaimRecord address chain s).stored = getClaimRecord address chain s := by
  unfold getClaimRecord at he ⊢
  cases hl : s.records.lookup (keyOf chain address) with
  | none =>
    rw [hl] at he
    cases he
  | some r => exact h _ r hl

theorem getClaimRecord_put (s : Store) (r : ClaimRecord) (address : String) (chain : Chain) :
    getClaimRecord address chain (s.put r) =
      if keyOf chain address = keyOf r.chain r.address then r.stored
      else getClaimRecord address chain s := by
  unfold getClaimRecord Store.put
  by_cases hk : keyOf chain address = keyOf r.chain r.address
  · rw [if_pos hk, hk, AList.lookup_insert]
    rfl
  · rw [if_neg hk, AList.lookup_insert_ne hk]

theorem ClaimRecord.stored_amount (h : r.stored = r) (a : Action) :
    (r.amount a).stored = r.amount a := by
  conv_rhs => rw [← h]
  cases a <;> rfl

/-! ## The payment -/

/-- The bank pays a coin to an address. -/
structure Store.Pays (env : Env) (s : Store) (address : String) (account : Bytes) (coin : Coin) :
    Prop where
  valid : coin.isValid = true
  account_eq : env.accAddressFromBech32 address = some account
  unblocked : env.blockedAddr account = false
  funded : coin.value ≤ s.bank.bal .module coin.denom

theorem sendCoins_ok {account : Bytes} {coin : Coin} {k : Key} {u : Unit} :
    sendCoinsFromModuleToAccount env account coin k a s = .ok u s' ↔
      coin.isValid = true ∧ env.blockedAddr account = false ∧
        coin.value ≤ s.bank.bal .module coin.denom ∧ s.sent account coin k a = s' := by
  unfold sendCoinsFromModuleToAccount
  rw [failIf_bind_ok, failIf_bind_ok, reading_bind, failIf_bind_ok, writing_ok]
  simp only [Bool.not_eq_false', decide_eq_false_iff_not, not_lt]
  rfl

/-- The store after a payment. -/
def Store.paid (s : Store) (r : ClaimRecord) (address : String) (account : Bytes) (coin : Coin)
    (a : Action) : Store :=
  (s.sent account coin (keyOf .arkeo address) a).put (r.setAmount a {})

/-- The claimable amount is what a successful claim returns. -/
theorem claimCoinsForAction_claimable {address : String} {coin : Coin}
    (h : claimCoinsForAction env ctx address a s = .ok coin s') :
    claimableAmount ctx (getClaimRecord address .arkeo s) a = .ok coin := by
  obtain ⟨claimable, t, hclaim, hrest⟩ := bind_ok.mp h
  obtain ⟨_, _, hr, hx⟩ := bind_ok.mp hclaim
  obtain ⟨rfl, rfl⟩ := reading_ok.mp hr
  obtain ⟨hamount, rfl⟩ := fromExcept_ok.mp hx
  split at hrest
  · obtain ⟨rfl, -⟩ := pure_ok.mp hrest
    exact hamount
  · rw [reading_bind] at hrest
    obtain ⟨account, -, hrest⟩ := ofOption_bind_ok.mp hrest
    obtain ⟨_, _, -, hrest⟩ := bind_ok.mp hrest
    obtain ⟨_, _, -, hrest⟩ := bind_ok.mp hrest
    obtain ⟨rfl, -⟩ := pure_ok.mp hrest
    exact hamount

/-- Nothing is paid where nothing is claimable. -/
theorem claimCoinsForAction_nothing {address : String} {coin : Coin}
    (hr : getClaimRecord address .arkeo s = r) (h : claimableAmount ctx r a = .ok coin)
    (hv : coin.value = 0) : claimCoinsForAction env ctx address a s = .ok coin s := by
  refine bind_ok.mpr ⟨coin, s, ?_, ?_⟩
  · exact bind_ok.mpr ⟨_, s, reading_ok.mpr ⟨hr, rfl⟩, fromExcept_ok.mpr ⟨h, rfl⟩⟩
  · rw [if_pos (by rw [hv, decide_eq_true rfl, Bool.or_true])]
    rfl

/-- **What is paid** where something is claimable. -/
theorem claimCoinsForAction_ok (hk : s.Kept env) {address : String} {coin paid : Coin}
    (hr : getClaimRecord address .arkeo s = r) (h : claimableAmount ctx r a = .ok coin)
    (hv : coin.value ≠ 0) :
    claimCoinsForAction env ctx address a s = .ok paid s' ↔
      ∃ account, s.Pays env address account coin ∧ paid = coin ∧
        s' = s.paid r address account coin a := by
  have hclaim : getClaimableAmountForAction ctx address a .arkeo s = .ok coin s :=
    bind_ok.mpr ⟨_, s, reading_ok.mpr ⟨hr, rfl⟩, fromExcept_ok.mpr ⟨h, rfl⟩⟩
  have hne : r.isEmpty = false := by
    by_contra he
    rw [claimableAmount_nothing (.inl (by simpa using he))] at h
    cases h
    exact hv rfl
  obtain ⟨-, hvalid, -⟩ := hk.of_not_isEmpty (hr ▸ hne)
  rw [hr] at hvalid
  have hcond : (coin.isNil || decide (coin.value = 0)) = false := by
    rw [Coin.isNil_or_zero, decide_eq_false hv]
  have hset : ∀ t, setClaimRecord env (r.setAmount a {}) t = .ok () (t.put (r.setAmount a {})) := by
    intro t
    refine setClaimRecord_ok.mpr ⟨?_, rfl⟩
    rw [r.setAmount_address, r.setAmount_chain]
    exact hvalid
  unfold claimCoinsForAction
  constructor
  · intro hrun
    obtain ⟨coin', t, hclaim', hrest⟩ := bind_ok.mp hrun
    rw [hclaim] at hclaim'
    cases hclaim'
    rw [hcond, if_neg Bool.false_ne_true, reading_bind, hr] at hrest
    obtain ⟨account, haccount, hrest⟩ := ofOption_bind_ok.mp hrest
    obtain ⟨_, t, hsend, hrest⟩ := bind_ok.mp hrest
    obtain ⟨hcoin, hblocked, hfunded, rfl⟩ := sendCoins_ok.mp hsend
    obtain ⟨_, t, hput, hrest⟩ := bind_ok.mp hrest
    rw [hset] at hput
    cases hput
    obtain ⟨rfl, rfl⟩ := pure_ok.mp hrest
    exact ⟨account, ⟨hcoin, haccount, hblocked, hfunded⟩, rfl, rfl⟩
  · rintro ⟨account, hpays, rfl, rfl⟩
    refine bind_ok.mpr ⟨_, s, hclaim, ?_⟩
    rw [hcond, if_neg Bool.false_ne_true, reading_bind, hr]
    refine ofOption_bind_ok.mpr ⟨account, hpays.account_eq, ?_⟩
    refine bind_ok.mpr ⟨(), _, sendCoins_ok.mpr ⟨hpays.valid, hpays.unblocked, hpays.funded, rfl⟩, ?_⟩
    exact bind_ok.mpr ⟨(), _, hset _, rfl⟩

/-! ## While the airdrop runs -/

structure Context.Running (ctx : Context) : Prop where
  started : ctx.Started
  not_ended : ¬ctx.Ended

/-- The claim of a coin goes through, if there are the coins for it. -/
def Context.Payable (env : Env) (ctx : Context) (address : String) (c : Coin) : Prop :=
  c.value = 0 ∨ ctx.Computes c ∧ (ctx.worth c = 0 ∨
    validateDenom c.denom = true ∧ 0 ≤ ctx.worth c ∧
      ∃ account, env.accAddressFromBech32 address = some account ∧ env.blockedAddr account = false)

/-- What is claimable of a record while the airdrop runs. -/
theorem claimableAmount_running (hrun : ctx.Running) (hne : r.isEmpty = false)
    (hv : (r.amount a).value ≠ 0) {coin : Coin} : claimableAmount ctx r a = .ok coin ↔
      ctx.Computes (r.amount a) ∧ coin = ⟨(r.amount a).denom, some (ctx.worth (r.amount a))⟩ := by
  rw [claimableAmount_eq hne hrun.started hv, if_neg hrun.not_ended]
  split
  · rename_i hc
    rw [Except.ok.injEq]
    exact ⟨fun h => ⟨hc, h.symm⟩, fun h => h.2.symm⟩
  · rename_i hc
    exact ⟨nofun, fun h => absurd h.1 hc⟩

theorem Context.worth_of_not_started (h : ¬ctx.Started) (c : Coin) : ctx.worth c = 0 := by
  unfold worth factor
  rw [if_pos (.inl h), mul_zero]
  rfl

theorem Context.worth_of_value {c : Coin} (h : c.value = 0) : ctx.worth c = 0 := by
  unfold worth
  rw [h, zero_mul]
  rfl

/-- What is claimable of a record is the worth of its amount. -/
theorem claimableAmount_value (hne : r.isEmpty = false) {coin : Coin}
    (h : claimableAmount ctx r a = .ok coin) : coin.value = ctx.worth (r.amount a) := by
  by_cases hv : (r.amount a).value = 0
  · rw [claimableAmount_nothing (.inr (.inr hv))] at h
    cases h
    exact (Context.worth_of_value hv).symm
  by_cases hs : ctx.Started
  · have hend : ¬ctx.Ended := by
      intro hend
      rw [claimableAmount_eq hne hs hv, if_pos hend] at h
      cases h
    obtain ⟨-, rfl⟩ := (claimableAmount_running ⟨hs, hend⟩ hne hv).mp h
    rfl
  · rw [claimableAmount_nothing (.inr (.inl hs))] at h
    cases h
    exact (Context.worth_of_not_started hs _).symm

/-- **Where a claim goes through.** -/
theorem claimCoinsForAction_succeeds (hk : s.Kept env) (hrun : ctx.Running) {address : String}
    (hr : getClaimRecord address .arkeo s = r) (hne : r.isEmpty = false)
    (hfund : ctx.worth (r.amount a) ≤ s.bank.bal .module (r.amount a).denom) :
    (∃ coin s', claimCoinsForAction env ctx address a s = .ok coin s') ↔
      ctx.Payable env address (r.amount a) := by
  unfold Context.Payable
  by_cases hv : (r.amount a).value = 0
  · have hnone : claimableAmount ctx r a = .ok {} := claimableAmount_nothing (.inr (.inr hv))
    exact ⟨fun _ => .inl hv, fun _ => ⟨_, _, claimCoinsForAction_nothing hr hnone rfl⟩⟩
  constructor
  · rintro ⟨coin, s', h⟩
    have hclaim := claimCoinsForAction_claimable h
    rw [hr] at hclaim
    obtain ⟨hc, rfl⟩ := (claimableAmount_running hrun hne hv).mp hclaim
    refine .inr ⟨hc, ?_⟩
    by_cases hw : ctx.worth (r.amount a) = 0
    · exact .inl hw
    · obtain ⟨account, hpays, -⟩ := (claimCoinsForAction_ok hk hr hclaim hw).mp h
      obtain ⟨hdenom, hpos⟩ := Coin.isValid_iff.mp hpays.valid
      exact .inr ⟨hdenom, hpos, account, hpays.account_eq, hpays.unblocked⟩
  · rintro (hzero | ⟨hc, hpay⟩)
    · exact absurd hzero hv
    have hclaim := (claimableAmount_running hrun hne hv).mpr ⟨hc, rfl⟩
    by_cases hw : ctx.worth (r.amount a) = 0
    · exact ⟨_, _, claimCoinsForAction_nothing hr hclaim hw⟩
    · obtain ⟨hdenom, hpos, account, haccount, hblocked⟩ := hpay.resolve_left hw
      have hpays : s.Pays env address account ⟨(r.amount a).denom, some (ctx.worth (r.amount a))⟩ :=
        ⟨Coin.isValid_iff.mpr ⟨hdenom, hpos⟩, haccount, hblocked, hfund⟩
      exact ⟨_, _, (claimCoinsForAction_ok hk hr hclaim hw).mpr ⟨account, hpays, rfl, rfl⟩⟩

end Arkeo.Airdrop
