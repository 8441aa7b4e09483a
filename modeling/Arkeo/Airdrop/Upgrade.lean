import Arkeo.Airdrop.Payout

/-! # The upgrade of the airdrop

The handler of a chain upgrade runs `RunUpgradeClaimFix`: it gives the airdrop longer
durations, and takes coins back from the reserve, to which the end blocker had swept what was
left.  Each is done at most once, behind a mark of its own, and the second takes the mark of
the sweep away, so that there may be another sweep.

The runs here take messages, hooks and blocks as before, upgrades at any time, and transfers of
the bank among the other accounts; the module's account is blocked, so nobody sends to it.
-/
namespace Arkeo.Airdrop
open Exec LegacyDec

/-! ## The functions of the upgrade -/

/-- What the upgrade reads and writes: the store, the parameters, which the module of the
parameters keeps, and the marks under `UpdateParamsKey` and `TransferTokensKey`. -/
structure UpgradeStore where
  store : Store
  params : Params
  paramsUpdated : Bool := false
  tokensTransferred : Bool := false

abbrev UpgradeKeeper := EStateM (Fault Error) UpgradeStore

/-- A number of days, in nanoseconds. -/
def days (n : Int64) : Int64 := n * 24 * 3600000000000

/-- `UpdateParams`. -/
def updateParams : UpgradeKeeper Bool := do
  let updated ← reading UpgradeStore.paramsUpdated
  if updated then pure false
  else do
    writing fun s => { s with
      params := { s.params with durationOfDecay := days 30, durationUntilDecay := days 37 }
      paramsUpdated := true }
    pure true

/-- 23 million coins of eight digits. -/
def amountToSend : ℤ := 23000000 * 100000000

/-- `MoveTokensFromReserveToClaimModule`. -/
def moveTokensFromReserveToClaimModule (blockTime : ℤ) : UpgradeKeeper Bool := do
  let transferred ← reading UpgradeStore.tokensTransferred
  if transferred then pure false
  else do
    let p ← reading UpgradeStore.params
    if p.airdropStartTime + p.durationUntilDecay.toInt + p.durationOfDecay.toInt < blockTime then
      pure false
    else do
      let reserve ← reading fun s => s.store.bank.bal .reserve defaultClaimDenom
      if amountToSend ≤ reserve then do
        writing fun s => { s with
          store := { s.store with
            bank := s.store.bank.move .reserve .module defaultClaimDenom amountToSend
            moved := false }
          tokensTransferred := true }
        pure true
      else pure false

def runUpgradeClaimFix (blockTime : ℤ) : UpgradeKeeper Unit := do
  let _ ← updateParams
  let _ ← moveTokensFromReserveToClaimModule blockTime
  pure ()

/-! ## What the upgrade does -/

/-- The durations after the first upgrade. -/
def Params.updated (p : Params) : Params :=
  { p with durationOfDecay := days 30, durationUntilDecay := days 37 }

namespace UpgradeStore

/-- With the new parameters. -/
def updated (s : UpgradeStore) : UpgradeStore :=
  if s.paramsUpdated then s
  else { s with params := s.params.updated, paramsUpdated := true }

/-- The coins can be taken back. -/
def Refillable (s : UpgradeStore) (blockTime : ℤ) : Prop :=
  s.tokensTransferred = false ∧ blockTime ≤ s.params.endTime ∧
    amountToSend ≤ s.store.bank.bal .reserve defaultClaimDenom

instance (s : UpgradeStore) (blockTime : ℤ) : Decidable (s.Refillable blockTime) := by
  unfold Refillable
  infer_instance

/-- With the coins from the reserve. -/
def refilled (s : UpgradeStore) : UpgradeStore :=
  { s with
    store := { s.store with
      bank := s.store.bank.move .reserve .module defaultClaimDenom amountToSend
      moved := false }
    tokensTransferred := true }

end UpgradeStore

theorem updateParams_eq (s : UpgradeStore) : updateParams s = .ok (!s.paramsUpdated) s.updated := by
  unfold updateParams UpgradeStore.updated
  rw [reading_bind]
  cases h : s.paramsUpdated with
  | true => rfl
  | false => rfl

theorem moveTokens_eq (blockTime : ℤ) (s : UpgradeStore) :
    moveTokensFromReserveToClaimModule blockTime s =
      .ok (decide (s.Refillable blockTime)) (if s.Refillable blockTime then s.refilled else s) := by
  unfold moveTokensFromReserveToClaimModule
  rw [reading_bind]
  by_cases ht : s.tokensTransferred = true
  · have hnot : ¬s.Refillable blockTime := fun h => by rw [h.1] at ht; cases ht
    rw [if_pos ht, if_neg hnot, decide_eq_false hnot]
    rfl
  rw [if_neg ht, reading_bind]
  by_cases hend : s.params.endTime < blockTime
  · have hnot : ¬s.Refillable blockTime := fun h => not_lt.mpr h.2.1 hend
    rw [if_pos (by exact hend), if_neg hnot, decide_eq_false hnot]
    rfl
  rw [if_neg (by exact hend), reading_bind]
  by_cases hfund : amountToSend ≤ s.store.bank.bal .reserve defaultClaimDenom
  · have hfill : s.Refillable blockTime := ⟨by simpa using ht, not_lt.mp hend, hfund⟩
    rw [if_pos hfund, if_pos hfill, decide_eq_true hfill]
    rfl
  · have hnot : ¬s.Refillable blockTime := fun h => hfund h.2.2
    rw [if_neg hfund, if_neg hnot, decide_eq_false hnot]
    rfl

/-- **The upgrade never fails.** -/
theorem runUpgradeClaimFix_eq (blockTime : ℤ) (s : UpgradeStore) :
    runUpgradeClaimFix blockTime s =
      .ok () (if s.updated.Refillable blockTime then s.updated.refilled else s.updated) := by
  have h : runUpgradeClaimFix blockTime s = .ok () _ :=
    bind_ok.mpr ⟨_, _, updateParams_eq s, bind_ok.mpr ⟨_, _, moveTokens_eq blockTime _, rfl⟩⟩
  exact h

/-! ## Runs with upgrades -/

/-- The world of the module with the marks of the upgrade.  What the end blocker has moved to
the reserve is written down, sweep by sweep; no function reads it. -/
structure UpgradeWorld where
  world : World
  paramsUpdated : Bool := false
  tokensTransferred : Bool := false
  swept : List ℤ := []

inductive UpgradeAction where
  | msg (m : Msg)
  | upgrade
  /-- A transfer of the bank that the module takes no part in. -/
  | transfer (src dst : Holder) (denom : String) (amount : ℤ)
  deriving DecidableEq, Repr

namespace UpgradeWorld

def upgradeStore (w : UpgradeWorld) : UpgradeStore where
  store := w.world.store
  params := w.world.ctx.params
  paramsUpdated := w.paramsUpdated
  tokensTransferred := w.tokensTransferred

/-- The world after an upgrade. -/
def upgraded (w : UpgradeWorld) (s : UpgradeStore) : UpgradeWorld :=
  { w with
    world := { w.world with store := s.store, ctx := { w.world.ctx with params := s.params } }
    paramsUpdated := s.paramsUpdated
    tokensTransferred := s.tokensTransferred }

/-- What is in the module's account, in the denomination of the claims. -/
def remaining (w : UpgradeWorld) : ℤ := w.world.store.bank.bal .module w.world.ctx.params.claimDenom

/-- The world after a message or a block: one that sets the mark has swept. -/
def delivered (w : UpgradeWorld) (v : World) : UpgradeWorld :=
  { w with
    world := v
    swept := if v.store.moved = w.world.store.moved then w.swept else w.swept ++ [w.remaining] }

/-- The world after a transfer. -/
def transferred (w : UpgradeWorld) (src dst : Holder) (denom : String) (amount : ℤ) :
    UpgradeWorld :=
  { w with
    world := { w.world with
      store := { w.world.store with bank := w.world.store.bank.move src dst denom amount } } }

def step (env : Env) (w : UpgradeWorld) : UpgradeAction → Option UpgradeWorld
  | .msg m => (Airdrop.step env w.world m).map w.delivered
  | .upgrade => (committed (runUpgradeClaimFix w.world.ctx.blockTime) w.upgradeStore).map w.upgraded
  | .transfer src dst denom amount =>
      if src ≠ .module ∧ dst ≠ .module ∧ 0 < amount ∧
          amount ≤ w.world.store.bank.bal src denom then
        some (w.transferred src dst denom amount)
      else some w

end UpgradeWorld

variable {env : Env} {ctx : Context} {s s' s₀ : Store} {v : World} {w w' : UpgradeWorld}
  {act : UpgradeAction} {m : Msg} {time : ℤ}

/-- What a step can do. -/
inductive UpgradeOutcome (env : Env) (w : UpgradeWorld) : UpgradeAction → UpgradeWorld → Prop
  | delivered (m : Msg) (v : World) (h : step env w.world m = some v) :
      UpgradeOutcome env w (.msg m) (w.delivered v)
  | refilled (h : w.upgradeStore.updated.Refillable w.world.ctx.blockTime) :
      UpgradeOutcome env w .upgrade (w.upgraded w.upgradeStore.updated.refilled)
  | updated (h : ¬w.upgradeStore.updated.Refillable w.world.ctx.blockTime) :
      UpgradeOutcome env w .upgrade (w.upgraded w.upgradeStore.updated)
  | transferred (src dst : Holder) (denom : String) (amount : ℤ) (hsrc : src ≠ .module)
      (hdst : dst ≠ .module) (hpos : 0 < amount) (hle : amount ≤ w.world.store.bank.bal src denom) :
      UpgradeOutcome env w (.transfer src dst denom amount) (w.transferred src dst denom amount)
  | refused (src dst : Holder) (denom : String) (amount : ℤ) :
      UpgradeOutcome env w (.transfer src dst denom amount) w

/-- **A step, inverted.** -/
theorem UpgradeWorld.step_outcome (h : w.step env act = some w') : UpgradeOutcome env w act w' := by
  cases act with
  | msg m =>
    obtain ⟨v, hv, rfl⟩ := Option.map_eq_some_iff.mp h
    exact .delivered m v hv
  | upgrade =>
    obtain ⟨s, hs, rfl⟩ := Option.map_eq_some_iff.mp h
    unfold committed at hs
    rw [runUpgradeClaimFix_eq] at hs
    obtain rfl := Option.some.inj hs
    split
    · rename_i hfill
      exact .refilled hfill
    · rename_i hfill
      exact .updated hfill
  | transfer src dst denom amount =>
    simp only [step] at h
    split at h
    · rename_i hcond
      obtain rfl := Option.some.inj h
      exact .transferred src dst denom amount hcond.1 hcond.2.1 hcond.2.2.1 hcond.2.2.2
    · obtain rfl := Option.some.inj h
      exact .refused src dst denom amount

/-! ## What is paid -/

/-- What was paid out in a denomination. -/
def Store.paidIn (s : Store) (d : String) : ℤ :=
  (s.payments.map fun pay => if pay.coin.denom = d then pay.coin.value else 0).sum

/-- Nothing but payments moves coins, and the module pays what it has. -/
structure Pays (s t : Store) : Prop where
  module : ∀ d, t.bank.bal .module d + t.paidIn d = s.bank.bal .module d + s.paidIn d
  nonneg : (∀ d, 0 ≤ s.bank.bal .module d) → ∀ d, 0 ≤ t.bank.bal .module d
  paid : ∀ d, s.paidIn d ≤ t.paidIn d
  supply : ∀ d, t.bank.supply d = s.bank.supply d

theorem Pays.refl (s : Store) : Pays s s := ⟨fun _ => rfl, id, fun _ => le_rfl, fun _ => rfl⟩

theorem Pays.put (h : Pays s s') (r : ClaimRecord) : Pays s (s'.put r) :=
  ⟨h.module, h.nonneg, h.paid, h.supply⟩

theorem Store.paidIn_sent (s : Store) (account : Bytes) (coin : Coin) (k : Key) (a : Action)
    (d : String) : (s.sent account coin k a).paidIn d =
      s.paidIn d + if d = coin.denom then coin.value else 0 := by
  simp [paidIn, sent, eq_comm]

theorem Store.sent_module (s : Store) (account : Bytes) (coin : Coin) (k : Key) (a : Action)
    (d : String) : (s.sent account coin k a).bank.bal .module d =
      s.bank.bal .module d - if d = coin.denom then coin.value else 0 := by
  change (s.bank.move .module (.user account) coin.denom coin.value).bal .module d = _
  rw [Ledger.bal_move]
  simp

theorem Pays.sent (h : Pays s s') {account : Bytes} {coin : Coin} {k : Key} {a : Action}
    (hv : coin.isValid = true) (hle : coin.value ≤ s'.bank.bal .module coin.denom) :
    Pays s (s'.sent account coin k a) := by
  have hpos := Coin.value_nonneg hv
  refine ⟨fun d => ?_, fun hn d => ?_, fun d => ?_, fun d => ?_⟩
  · have hold := h.module d
    rw [Store.paidIn_sent, Store.sent_module]
    split <;> omega
  · have hold := h.nonneg hn d
    rw [Store.sent_module]
    split
    · rename_i hd
      rw [hd]
      omega
    · omega
  · have hold := h.paid d
    rw [Store.paidIn_sent]
    split <;> omega
  · change (s'.bank.move .module (.user account) coin.denom coin.value).supply d = _
    rw [Ledger.supply_move]
    exact h.supply d

/-- What survives a payment that is covered survives the bank. -/
theorem sendCoins_preserves {P : Store → Prop} {account : Bytes} {coin : Coin} {k : Key} {a : Action}
    (h : ∀ t, P t → coin.isValid = true → coin.value ≤ t.bank.bal .module coin.denom →
      P (t.sent account coin k a)) : Preserves P (sendCoinsFromModuleToAccount env account coin k a) := by
  intro t ht
  rcases sendCoins_cases env account coin k a t with ⟨e, he⟩ | hok
  · rw [he]
    exact ht
  · obtain ⟨hv, -, hle, -⟩ := sendCoins_ok.mp hok
    rw [hok]
    exact h t ht hv hle

theorem setClaimRecord_pays (r : ClaimRecord) : Preserves (Pays s) (setClaimRecord env r) :=
  .failIf fun _ => .writing fun _ h => h.put r

theorem claimCoinsForAction_only_pays (address : String) (a : Action) :
    Preserves (Pays s) (claimCoinsForAction env ctx address a) := by
  refine (readOnly_getClaimable _ _ _ _).preserves.bind fun claimable => ?_
  split
  · exact (readOnly_pure _).preserves
  refine (readOnly_reading _).preserves.bind fun r => ?_
  refine (readOnly_ofOption _ _).preserves.bind fun account => ?_
  refine (sendCoins_preserves fun t h hv hle => h.sent hv hle).bind fun _ => ?_
  exact (setClaimRecord_pays _).bind fun _ => (readOnly_pure _).preserves

/-- **Every message and hook only pays.** -/
theorem step_pays {w w' : World} (h : step env w m = some w') (hm : ∀ time, m ≠ .nextBlock time) :
    Pays w.store w'.store := by
  rcases (step_msg h hm).2 with hc | hsame
  · exact (handler_preserves setClaimRecord_pays claimCoinsForAction_only_pays hm).committed
      (.refl _) hc
  · rw [hsame]
    exact .refl _

theorem step_moved {w w' : World} (h : step env w m = some w') (hm : ∀ time, m ≠ .nextBlock time) :
    w'.store.moved = w.store.moved := by
  rcases (step_msg h hm).2 with hc | hsame
  · exact (handler_moved hm).committed rfl hc
  · rw [hsame]

/-! ## What is swept -/

/-- The module's coins of a denomination have gone to the reserve, and the mark is set. -/
structure Sweeps (d : String) (s t : Store) : Prop where
  records : t.records = s.records
  payments : t.payments = s.payments
  marked : t.moved = true
  module : ∀ d', t.bank.bal .module d' =
    s.bank.bal .module d' - if d' = d then s.bank.bal .module d else 0
  supply : ∀ d', t.bank.supply d' = s.bank.supply d'

theorem nextBlock_store {w w' : World} (h : step env w (.nextBlock time) = some w') :
    committed (endBlocker w.ctx) w.store = some w'.store := by
  unfold step at h
  cases hc : committed (handler env w.ctx (.nextBlock time)) w.store with
  | none =>
    rw [hc] at h
    cases h
  | some s =>
    rw [hc] at h
    simp only at h
    split at h
    · cases h
      exact hc
    · cases h

/-- **The end of a block**: a sweep after the end of the airdrop, or nothing. -/
theorem nextBlock_sweeps {w w' : World} (h : step env w (.nextBlock time) = some w') :
    w'.store = w.store ∨ w.store.moved = false ∧ w.ctx.params.endTime < w.ctx.blockTime ∧
      Sweeps w.ctx.params.claimDenom w.store w'.store := by
  rcases (nextBlock_cases h).2.2 with ⟨hun, hend, -⟩ | ⟨-, hsame⟩
  swap
  · exact .inl hsame
  refine .inr ⟨hun, hend, ?_⟩
  obtain ⟨_, hrun⟩ := committed_some.mp (nextBlock_store h)
  rw [endBlocker_eq, if_pos ⟨hun, hend⟩] at hrun
  obtain ⟨_, t, hmove, hwrite⟩ := bind_ok.mp hrun
  rw [← writing_ok.mp hwrite]
  obtain ⟨-, hmove⟩ := failIf_bind_ok.mp hmove
  rw [reading_bind] at hmove
  split at hmove
  · rename_i hzero
    obtain ⟨-, rfl⟩ := pure_ok.mp hmove
    refine ⟨rfl, rfl, rfl, fun d' => ?_, fun _ => rfl⟩
    rw [hzero]
    split <;> exact (Int.sub_zero _).symm
  · obtain rfl := writing_ok.mp hmove
    refine ⟨rfl, rfl, rfl, fun d' => ?_, fun d' => Ledger.supply_move ..⟩
    change (w.store.bank.move .module .reserve _ _).bal .module d' = _
    rw [Ledger.bal_move]
    simp

/-! ## The accounts of a run -/

/-- The world of a genesis. -/
def UpgradeWorld.start (s : Store) (ctx : Context) : UpgradeWorld where
  world := genesis s ctx

/-- What every run keeps, from the store `s₀` and the parameters `p` on. -/
structure Traced (s₀ : Store) (p : Params) (w : UpgradeWorld) : Prop where
  supply : ∀ d, w.world.store.bank.supply d = s₀.bank.supply d
  module : ∀ d, w.world.store.bank.bal .module d + w.world.store.paidIn d +
      (if d = p.claimDenom then w.swept.sum else 0) =
    s₀.bank.bal .module d +
      if d = defaultClaimDenom ∧ w.tokensTransferred = true then amountToSend else 0
  nonneg : ∀ d, 0 ≤ w.world.store.bank.bal .module d
  paid_nonneg : ∀ d, 0 ≤ w.world.store.paidIn d
  /-- One sweep before the coins are taken back and one after it, at most. -/
  sweeps : w.swept.length ≤ w.world.store.moved.toNat + w.tokensTransferred.toNat
  /-- Before the second sweep, no more was swept than there was at the genesis. -/
  first : w.world.store.moved = false → w.swept.sum ≤ s₀.bank.bal .module p.claimDenom
  params : w.world.ctx.params = if w.paramsUpdated then p.updated else p
  /-- The coins are taken back under the new parameters. -/
  late : w.tokensTransferred = true → w.paramsUpdated = true

section
variable {p : Params}

theorem start_traced (hpay : s₀.payments = []) (hn : ∀ d, 0 ≤ s₀.bank.bal .module d) :
    Traced s₀ ctx.params (.start s₀ ctx) where
  supply _ := rfl
  module d := by
    have hpaid : s₀.paidIn d = 0 := by
      rw [Store.paidIn, hpay]
      rfl
    change s₀.bank.bal .module d + s₀.paidIn d + (if d = _ then 0 else 0) = _
    rw [hpaid]
    simp [UpgradeWorld.start]
  nonneg := hn
  paid_nonneg d := by
    change 0 ≤ s₀.paidIn d
    rw [Store.paidIn, hpay]
    exact le_rfl
  sweeps := Nat.zero_le _
  first _ := hn _
  params := rfl
  late h := by cases h

theorem Traced.claimDenom_eq (ht : Traced s₀ p w) : w.world.ctx.params.claimDenom = p.claimDenom := by
  rw [ht.params]
  split <;> rfl

theorem Traced.pays (ht : Traced s₀ p w) (hpay : Pays w.world.store v.store)
    (hmoved : v.store.moved = w.world.store.moved) (hparams : v.ctx.params = w.world.ctx.params) :
    Traced s₀ p (w.delivered v) := by
  have hswept : (w.delivered v).swept = w.swept := if_pos hmoved
  refine
    { supply := fun d => (hpay.supply d).trans (ht.supply d)
      module := fun d => ?_
      nonneg := hpay.nonneg ht.nonneg
      paid_nonneg := fun d => (ht.paid_nonneg d).trans (hpay.paid d)
      sweeps := ?_
      first := fun h => ?_
      params := hparams.trans ht.params
      late := ht.late }
  · change v.store.bank.bal .module d + v.store.paidIn d + _ = _
    rw [hpay.module d, hswept]
    exact ht.module d
  · change _ ≤ v.store.moved.toNat + w.tokensTransferred.toNat
    rw [hswept, hmoved]
    exact ht.sweeps
  · rw [hswept]
    exact ht.first (hmoved.symm.trans h)

theorem Traced.sweep (ht : Traced s₀ p w) (hun : w.world.store.moved = false)
    (hsweep : Sweeps w.world.ctx.params.claimDenom w.world.store v.store)
    (hparams : v.ctx.params = w.world.ctx.params) : Traced s₀ p (w.delivered v) := by
  have hmarked := hsweep.marked
  have hswept : (w.delivered v).swept = w.swept ++ [w.remaining] :=
    if_neg (by rw [hmarked, hun]; decide)
  have hpaid : ∀ d, v.store.paidIn d = w.world.store.paidIn d := by
    intro d
    rw [Store.paidIn, hsweep.payments, Store.paidIn]
  have hmodule := hsweep.module
  rw [ht.claimDenom_eq] at hmodule
  refine
    { supply := fun d => (hsweep.supply d).trans (ht.supply d)
      module := fun d => ?_
      nonneg := fun d => ?_
      paid_nonneg := fun d => ?_
      sweeps := ?_
      first := fun h => ?_
      params := hparams.trans ht.params
      late := ht.late }
  · have hold := ht.module d
    change v.store.bank.bal .module d + v.store.paidIn d + _ = _
    rw [hmodule, hpaid, hswept, List.sum_append, List.sum_singleton, UpgradeWorld.remaining,
      ht.claimDenom_eq]
    change _ = s₀.bank.bal .module d +
      if d = defaultClaimDenom ∧ w.tokensTransferred = true then amountToSend else 0
    rw [← hold]
    by_cases hd : d = p.claimDenom
    · rw [if_pos hd, if_pos hd, if_pos hd, hd]
      omega
    · rw [if_neg hd, if_neg hd, if_neg hd]
      omega
  · have hold := ht.nonneg d
    change 0 ≤ v.store.bank.bal .module d
    rw [hmodule]
    split
    · rename_i hd
      rw [hd]
      omega
    · omega
  · exact (ht.paid_nonneg d).trans (hpaid d).ge
  · have hold := ht.sweeps
    rw [hun] at hold
    change _ ≤ v.store.moved.toNat + w.tokensTransferred.toNat
    rw [hswept, hmarked, List.length_append]
    simp only [Bool.toNat_false, Bool.toNat_true, List.length_singleton] at hold ⊢
    omega
  · rw [show (w.delivered v).world.store.moved = true from hmarked] at h
    cases h

@[simp] theorem UpgradeStore.updated_store (s : UpgradeStore) : s.updated.store = s.store := by
  unfold updated
  split <;> rfl

@[simp] theorem UpgradeStore.updated_tokensTransferred (s : UpgradeStore) :
    s.updated.tokensTransferred = s.tokensTransferred := by
  unfold updated
  split <;> rfl

@[simp] theorem UpgradeStore.updated_paramsUpdated (s : UpgradeStore) :
    s.updated.paramsUpdated = true := by
  unfold updated
  split
  · assumption
  · rfl

theorem Traced.updated_params (ht : Traced s₀ p w) :
    w.upgradeStore.updated.params = p.updated := by
  have hparams := ht.params
  unfold UpgradeStore.updated
  cases hu : w.paramsUpdated with
  | true =>
    rw [hu, if_pos rfl] at hparams
    rw [if_pos (by exact hu)]
    exact hparams
  | false =>
    rw [hu, if_neg Bool.false_ne_true] at hparams
    rw [if_neg (by simp [UpgradeWorld.upgradeStore, hu])]
    exact congrArg Params.updated hparams

theorem Traced.update (ht : Traced s₀ p w) : Traced s₀ p (w.upgraded w.upgradeStore.updated) := by
  have hstore : (w.upgraded w.upgradeStore.updated).world.store = w.world.store :=
    UpgradeStore.updated_store _
  have htrans : (w.upgraded w.upgradeStore.updated).tokensTransferred = w.tokensTransferred :=
    UpgradeStore.updated_tokensTransferred _
  have hupd : (w.upgraded w.upgradeStore.updated).paramsUpdated = true :=
    UpgradeStore.updated_paramsUpdated _
  refine
    { supply := fun d => ?_
      module := fun d => ?_
      nonneg := fun d => ?_
      paid_nonneg := fun d => ?_
      sweeps := ?_
      first := fun h => ?_
      params := ?_
      late := fun _ => hupd }
  · rw [hstore]
    exact ht.supply d
  · rw [hstore, htrans]
    exact ht.module d
  · rw [hstore]
    exact ht.nonneg d
  · rw [hstore]
    exact ht.paid_nonneg d
  · rw [hstore, htrans]
    exact ht.sweeps
  · rw [hstore] at h
    exact ht.first h
  · rw [hupd, if_pos rfl]
    exact ht.updated_params

theorem Traced.refill (ht : Traced s₀ p w)
    (hfill : w.upgradeStore.updated.Refillable w.world.ctx.blockTime) :
    Traced s₀ p (w.upgraded w.upgradeStore.updated.refilled) := by
  have hfalse : w.tokensTransferred = false := by
    have h := hfill.1
    rw [UpgradeStore.updated_tokensTransferred] at h
    exact h
  have hbank : (w.upgraded w.upgradeStore.updated.refilled).world.store.bank =
      w.world.store.bank.move .reserve .module defaultClaimDenom amountToSend := by
    simp [UpgradeWorld.upgraded, UpgradeStore.refilled, UpgradeWorld.upgradeStore]
  have hpaid : ∀ d, (w.upgraded w.upgradeStore.updated.refilled).world.store.paidIn d =
      w.world.store.paidIn d := by
    intro d
    simp [UpgradeWorld.upgraded, UpgradeStore.refilled, UpgradeWorld.upgradeStore, Store.paidIn]
  have hmodule : ∀ d, (w.upgraded w.upgradeStore.updated.refilled).world.store.bank.bal .module d =
      w.world.store.bank.bal .module d + if d = defaultClaimDenom then amountToSend else 0 := by
    intro d
    rw [hbank, Ledger.bal_move]
    simp
  have hpos : (0 : ℤ) ≤ amountToSend := by decide
  refine
    { supply := fun d => ?_
      module := fun d => ?_
      nonneg := fun d => ?_
      paid_nonneg := fun d => ?_
      sweeps := ?_
      first := fun _ => ?_
      params := ?_
      late := fun _ => UpgradeStore.updated_paramsUpdated _ }
  · rw [hbank, Ledger.supply_move]
    exact ht.supply d
  · have hold := ht.module d
    rw [hfalse] at hold
    rw [hmodule, hpaid]
    change _ + _ + (if d = p.claimDenom then w.swept.sum else 0) =
      _ + if d = defaultClaimDenom ∧ true = true then amountToSend else 0
    simp only [Bool.false_eq_true, and_false, if_false, and_true] at hold ⊢
    omega
  · have hold := ht.nonneg d
    rw [hmodule]
    split <;> omega
  · rw [hpaid]
    exact ht.paid_nonneg d
  · have hold := ht.sweeps
    rw [hfalse] at hold
    change w.swept.length ≤ 0 + 1
    have hle := Bool.toNat_le w.world.store.moved
    simp only [Bool.toNat_false] at hold
    omega
  · -- what is not swept yet was not paid out either
    have hold := ht.module p.claimDenom
    have hn := ht.nonneg p.claimDenom
    have hp := ht.paid_nonneg p.claimDenom
    rw [hfalse, if_pos rfl] at hold
    simp only [Bool.false_eq_true, and_false, if_false] at hold
    change w.swept.sum ≤ _
    omega
  · have hupd : (w.upgraded w.upgradeStore.updated.refilled).paramsUpdated = true :=
      UpgradeStore.updated_paramsUpdated _
    rw [hupd, if_pos rfl]
    exact ht.updated_params

theorem Traced.transfer (ht : Traced s₀ p w) {src dst : Holder} (hsrc : src ≠ .module)
    (hdst : dst ≠ .module) (denom : String) (amount : ℤ) :
    Traced s₀ p (w.transferred src dst denom amount) := by
  have hmodule : ∀ d, (w.transferred src dst denom amount).world.store.bank.bal .module d =
      w.world.store.bank.bal .module d := by
    intro d
    change (w.world.store.bank.move src dst denom amount).bal .module d = _
    rw [Ledger.bal_move, if_neg (fun h => hsrc h.1.symm), if_neg (fun h => hdst h.1.symm)]
    omega
  refine
    { supply := fun d => (Ledger.supply_move ..).trans (ht.supply d)
      module := fun d => ?_
      nonneg := fun d => ?_
      paid_nonneg := ht.paid_nonneg
      sweeps := ht.sweeps
      first := ht.first
      params := ht.params
      late := ht.late }
  · rw [hmodule]
    exact ht.module d
  · rw [hmodule]
    exact ht.nonneg d

/-- **One step** keeps the accounts. -/
theorem UpgradeOutcome.traced (h : UpgradeOutcome env w act w') (ht : Traced s₀ p w) :
    Traced s₀ p w' := by
  cases h with
  | delivered m v hstep =>
    by_cases hm : ∃ time, m = .nextBlock time
    · obtain ⟨time, rfl⟩ := hm
      rcases nextBlock_sweeps hstep with hsame | ⟨hun, -, hsweep⟩
      · exact ht.pays (by rw [hsame]; exact .refl _) (by rw [hsame]) (step_params hstep)
      · exact ht.sweep hun hsweep (step_params hstep)
    · have hm' : ∀ time, m ≠ .nextBlock time := fun time he => hm ⟨time, he⟩
      exact ht.pays (step_pays hstep hm') (step_moved hstep hm') (step_params hstep)
  | refilled hfill => exact ht.refill hfill
  | updated _ => exact ht.update
  | transferred src dst denom amount hsrc hdst _ _ => exact ht.transfer hsrc hdst denom amount
  | refused src dst denom amount => exact ht

end

/-- The genesis writes records, and nothing else. -/
theorem initGenesis_bank {bank : Ledger Holder String} {records : List ClaimRecord}
    (h : initGenesis env bank records = some s) : s.bank = bank ∧ s.payments = [] := by
  have hset : ∀ r, Preserves (fun t : Store => t.bank = bank ∧ t.payments = [])
      (setClaimRecord env r) := fun _ => .failIf fun _ => .writing fun _ h => h
  exact (Preserves.forEach hset records).committed ⟨rfl, rfl⟩ h

theorem run_traced {bank : Ledger Holder String} {records : List ClaimRecord}
    (hn : ∀ d, 0 ≤ bank.bal .module d) (hgen : initGenesis env bank records = some s₀)
    {actions : List UpgradeAction}
    (hrun : Runs.run (UpgradeWorld.step env) (.start s₀ ctx) actions = some w) :
    Traced s₀ ctx.params w := by
  obtain ⟨hbank, hpay⟩ := initGenesis_bank hgen
  exact Runs.run_induct (P := Traced s₀ ctx.params)
    (fun _ _ _ ht hstep => (UpgradeWorld.step_outcome hstep).traced ht)
    (start_traced hpay (by rw [hbank]; exact hn)) hrun

/-- The run from `w₀` to `w` takes the coins back in one of its upgrades, and sweeps once at
most before it and once at most after it. -/
structure TakesBack (env : Env) (w₀ w : UpgradeWorld) (actions : List UpgradeAction)
    (before after : UpgradeWorld) : Prop where
  split : ∃ pre post, actions = pre ++ .upgrade :: post ∧
    Runs.run (UpgradeWorld.step env) w₀ pre = some before ∧
    Runs.run (UpgradeWorld.step env) after post = some w
  taken : before.step env .upgrade = some after
  refilled : before.tokensTransferred = false ∧ after.tokensTransferred = true
  swept_before : before.swept.length ≤ before.world.store.moved.toNat
  swept_after : ∃ later, w.swept = before.swept ++ later ∧
    later.length ≤ w.world.store.moved.toNat

/-- The sweeps since the coins were taken back, of which there is one if the mark is set. -/
def SweptSince (swept : List ℤ) (w : UpgradeWorld) : Prop :=
  w.tokensTransferred = true ∧ ∃ later, w.swept = swept ++ later ∧
    later.length ≤ w.world.store.moved.toNat

theorem UpgradeOutcome.sweptSince {swept : List ℤ} (h : UpgradeOutcome env w act w')
    (hs : SweptSince swept w) : SweptSince swept w' := by
  obtain ⟨htaken, later, hlater, hle⟩ := hs
  cases h with
  | delivered m v hstep =>
    refine ⟨htaken, ?_⟩
    by_cases hsame : v.store.moved = w.world.store.moved
    · exact ⟨later, (if_pos hsame).trans hlater, hsame ▸ hle⟩
    · -- the mark was not set before, and is now
      have hun : w.world.store.moved = false := by
        by_contra hmarked
        have hmarked := Bool.eq_true_of_not_eq_false hmarked
        exact hsame ((step_marked hstep hmarked).trans hmarked.symm)
      rw [hun] at hle hsame
      have hmarked : (w.delivered v).world.store.moved = true := Bool.eq_true_of_not_eq_false hsame
      refine ⟨later ++ [w.remaining], ?_, ?_⟩
      · rw [← List.append_assoc, ← hlater]
        exact if_neg (by rw [hun]; exact hsame)
      · rw [hmarked, List.length_append]
        exact Nat.add_le_add_right hle 1
  | refilled hfill =>
    have hun := hfill.1
    rw [UpgradeStore.updated_tokensTransferred] at hun
    rw [show w.tokensTransferred = false from hun] at htaken
    cases htaken
  | updated _ =>
    refine ⟨(UpgradeStore.updated_tokensTransferred _).trans htaken, later, hlater, ?_⟩
    change _ ≤ w.upgradeStore.updated.store.moved.toNat
    rw [UpgradeStore.updated_store]
    exact hle
  | transferred src dst denom amount _ _ _ _ => exact ⟨htaken, later, hlater, hle⟩
  | refused src dst denom amount => exact ⟨htaken, later, hlater, hle⟩

/-- **A run that takes the coins back** does so in one upgrade, between two sweeps at most. -/
theorem run_takesBack {bank : Ledger Holder String} {records : List ClaimRecord}
    (hn : ∀ d, 0 ≤ bank.bal .module d) (hgen : initGenesis env bank records = some s₀)
    {actions : List UpgradeAction}
    (hrun : Runs.run (UpgradeWorld.step env) (.start s₀ ctx) actions = some w)
    (htaken : w.tokensTransferred = true) :
    ∃ before after, TakesBack env (.start s₀ ctx) w actions before after := by
  obtain ⟨pre, act, post, u, u', rfl, hpre, hu, hstep, hu', hpost⟩ :=
    Runs.run_turn (P := fun w : UpgradeWorld => w.tokensTransferred = true) Bool.false_ne_true
      hrun htaken
  have hun : u.tokensTransferred = false := Bool.eq_false_of_not_eq_true hu
  have hsweeps := (run_traced hn hgen hpre).sweeps
  rw [hun] at hsweeps
  have hsince : act = .upgrade ∧ SweptSince u.swept u' := by
    cases UpgradeWorld.step_outcome hstep with
    | refilled hfill => exact ⟨rfl, hu', [], (List.append_nil _).symm, Nat.zero_le _⟩
    | updated _ => exact absurd ((UpgradeStore.updated_tokensTransferred _).symm.trans hu') hu
    | delivered m v _ => exact absurd hu' hu
    | transferred src dst denom amount _ _ _ _ => exact absurd hu' hu
    | refused src dst denom amount => exact absurd hu' hu
  obtain ⟨rfl, hsince⟩ := hsince
  obtain ⟨-, hafter⟩ := Runs.run_induct (P := SweptSince u.swept)
    (fun _ _ _ hs hstep => (UpgradeWorld.step_outcome hstep).sweptSince hs) hsince hpost
  exact ⟨u, u', ⟨pre, post, rfl, hpre, hpost⟩, hstep, ⟨hun, hu'⟩, hsweeps, hafter⟩

/-- **The coins of the airdrop.**  From every genesis, in every run of messages, hooks, blocks,
upgrades and other transfers: no coin is made or lost; what is in the module's account, was paid
out and was swept is what was there at the genesis, and the 23 million taken back from the
reserve if they were; there is one sweep at most as long as they are not, and else they are
taken back in one upgrade, with one sweep before it and one after it at most; and the durations
change once, to those of the upgrade. -/
theorem airdrop_funds_traced {bank : Ledger Holder String} {records : List ClaimRecord}
    (hn : ∀ d, 0 ≤ bank.bal .module d) (hgen : initGenesis env bank records = some s₀)
    {actions : List UpgradeAction}
    (hrun : Runs.run (UpgradeWorld.step env) (.start s₀ ctx) actions = some w) :
    (∀ d, w.world.store.bank.supply d = bank.supply d) ∧
    (∀ d, 0 ≤ w.world.store.bank.bal .module d ∧
      w.world.store.bank.bal .module d + w.world.store.paidIn d +
        (if d = ctx.params.claimDenom then w.swept.sum else 0) =
      bank.bal .module d +
        if d = defaultClaimDenom ∧ w.tokensTransferred = true then amountToSend else 0) ∧
    (w.tokensTransferred = false → w.swept.length ≤ w.world.store.moved.toNat) ∧
    (w.tokensTransferred = true → ∃ before after,
      TakesBack env (.start s₀ ctx) w actions before after) ∧
    w.world.ctx.params = (if w.paramsUpdated then ctx.params.updated else ctx.params) ∧
    (w.tokensTransferred = true → w.paramsUpdated = true) := by
  have ht := run_traced hn hgen hrun
  obtain ⟨hbank, -⟩ := initGenesis_bank hgen
  refine ⟨?_, fun d => ⟨ht.nonneg d, ?_⟩, fun hnot => ?_, run_takesBack hn hgen hrun, ht.params, ht.late⟩
  · rw [← hbank]
    exact ht.supply
  · rw [← hbank]
    exact ht.module d
  · have hsweeps := ht.sweeps
    rw [hnot] at hsweeps
    exact hsweeps

/-! ## The second end of the airdrop -/

theorem Params.updated_sane (p : Params) : p.updated.Sane where
  until_nonneg := show 0 ≤ (days 37).toInt by decide
  decay_nonneg := show 0 ≤ (days 30).toInt by decide
  fits := show (days 37).toInt + (days 30).toInt < 2 ^ 63 by decide

/-- What stays as it is after the second end, from the world `w` on. -/
structure StaysOver (w u : UpgradeWorld) : Prop where
  time_le : w.world.ctx.blockTime ≤ u.world.ctx.blockTime
  updated : u.paramsUpdated = true
  params : u.world.ctx.params = w.world.ctx.params
  marked : u.world.store.moved = true
  swept : u.swept = w.swept
  transferred : u.tokensTransferred = w.tokensTransferred
  /-- As long as the time can be counted. -/
  funds : u.world.ctx.blockTime - w.world.ctx.params.airdropStartTime < 2 ^ 63 →
    u.world.store.payments = w.world.store.payments ∧
      ∀ d, u.world.store.bank.bal .module d = w.world.store.bank.bal .module d

theorem UpgradeOutcome.staysOver {u u' : UpgradeWorld} (h : UpgradeOutcome env u act u')
    (hs : StaysOver w u) (hsane : w.world.ctx.params.Sane)
    (hended : w.world.ctx.params.endTime < w.world.ctx.blockTime) : StaysOver w u' := by
  have hlate : u.world.ctx.params.endTime < u.world.ctx.blockTime := by
    rw [hs.params]
    exact hended.trans_le hs.time_le
  cases h with
  | delivered m v hstep =>
    have hmarked := step_marked hstep hs.marked
    refine
      { time_le := hs.time_le.trans (step_time hstep)
        updated := hs.updated
        params := (step_params hstep).trans hs.params
        marked := hmarked
        swept := (if_pos (hmarked.trans hs.marked.symm)).trans hs.swept
        transferred := hs.transferred
        funds := fun hcount => ?_ }
    have hcount' : u.world.ctx.blockTime - w.world.ctx.params.airdropStartTime < 2 ^ 63 := by
      have htime := step_time hstep
      change v.ctx.blockTime - _ < _ at hcount
      omega
    obtain ⟨hpay, hmodule⟩ := hs.funds hcount'
    have hover : u.world.ctx.Over := ⟨hs.params ▸ hsane, hlate, by rw [hs.params]; exact hcount'⟩
    rcases step_funds hstep hover with hsame | ⟨t, -, hagain⟩
    · refine ⟨hsame.payments.trans hpay, fun d => ?_⟩
      change v.store.bank.bal .module d = _
      rw [hsame.bank]
      exact hmodule d
    · -- another sweep would not find the mark
      have hun := hagain.unmarked
      rw [hs.marked] at hun
      cases hun
  | refilled hfill =>
    have hin := hfill.2.1
    have hparams : u.upgradeStore.updated.params = u.world.ctx.params := by
      rw [UpgradeStore.updated, if_pos (by exact hs.updated)]
      rfl
    rw [hparams] at hin
    omega
  | updated hfill =>
    have hsame : u.upgradeStore.updated = u.upgradeStore := if_pos hs.updated
    rw [hsame]
    exact ⟨hs.time_le, hs.updated, hs.params, hs.marked, hs.swept, hs.transferred, hs.funds⟩
  | transferred src dst denom amount hsrc hdst _ _ =>
    refine ⟨hs.time_le, hs.updated, hs.params, hs.marked, hs.swept, hs.transferred, fun hcount => ?_⟩
    obtain ⟨hpay, hmodule⟩ := hs.funds hcount
    refine ⟨hpay, fun d => ?_⟩
    change (u.world.store.bank.move src dst denom amount).bal .module d = _
    rw [Ledger.bal_move, if_neg (fun h => hsrc h.1.symm), if_neg (fun h => hdst h.1.symm)]
    have := hmodule d
    omega
  | refused src dst denom amount => exact hs

/-- **After the upgrade the airdrop ends for good.**  Once the parameters are the upgrade's, the
airdrop has ended and what was left was swept, nothing that follows, further upgrades included,
pays, sweeps or takes back a coin. -/
theorem upgraded_airdrop_ends {bank : Ledger Holder String} {records : List ClaimRecord}
    (hn : ∀ d, 0 ≤ bank.bal .module d) (hgen : initGenesis env bank records = some s₀)
    {actions later : List UpgradeAction}
    (hrun : Runs.run (UpgradeWorld.step env) (.start s₀ ctx) actions = some w)
    (hupd : w.paramsUpdated = true) (hended : w.world.ctx.params.endTime < w.world.ctx.blockTime)
    (hmarked : w.world.store.moved = true)
    (hlater : Runs.run (UpgradeWorld.step env) w later = some w')
    (hcount : w'.world.ctx.blockTime - ctx.params.airdropStartTime < 2 ^ 63) :
    w'.swept = w.swept ∧ w'.tokensTransferred = w.tokensTransferred ∧
      w'.world.store.moved = true ∧ w'.world.store.payments = w.world.store.payments ∧
      ∀ d, w'.world.store.bank.bal .module d = w.world.store.bank.bal .module d := by
  have hparams := (run_traced hn hgen hrun).params
  rw [hupd, if_pos rfl] at hparams
  have hsane : w.world.ctx.params.Sane := by
    rw [hparams]
    exact Params.updated_sane _
  have hs : StaysOver w w' := by
    refine Runs.run_induct (P := StaysOver w) (fun u a u' hs hstep => ?_) ?_ hlater
    · exact (UpgradeWorld.step_outcome hstep).staysOver hs hsane hended
    · exact ⟨le_rfl, hupd, rfl, hmarked, rfl, rfl, fun _ => ⟨rfl, fun _ => rfl⟩⟩
  have hstart : w.world.ctx.params.airdropStartTime = ctx.params.airdropStartTime := by
    rw [hparams]
    rfl
  obtain ⟨hpay, hmodule⟩ := hs.funds (by rw [hstart]; exact hcount)
  exact ⟨hs.swept, hs.transferred, hs.marked, hpay, hmodule⟩

/-! ## What the upgrade does to the claims -/

section
variable {t t' d d' : ℤ}

/-- Less of a share of the time has passed, so more is left. -/
theorem tenThousandths_le (h0 : 0 ≤ t') (htd : t ≤ d) (hd : 0 < d) (hd' : 0 < d')
    (hshare : t' * d ≤ t * d') : tenThousandths t d ≤ tenThousandths t' d' := by
  have ht : 0 ≤ t := by
    have hprod := Int.mul_nonneg h0 hd.le
    by_contra hneg
    have := Int.mul_neg_of_neg_of_pos (Int.not_le.mp hneg) hd'
    omega
  have hq : ofInt t' / d' ≤ ofInt t / d := by
    rw [Int.le_ediv_iff_mul_le hd]
    have hfloor : ofInt t' / d' * d' ≤ ofInt t' := Int.ediv_mul_le _ hd'.ne'
    refine Int.le_of_mul_le_mul_right ?_ hd'
    calc ofInt t' / d' * d * d'
        = ofInt t' / d' * d' * d := by ring
      _ ≤ ofInt t' * d := Int.mul_le_mul_of_nonneg_right hfloor hd.le
      _ = t' * d * precision := by unfold ofInt; ring
      _ ≤ t * d' * precision := Int.mul_le_mul_of_nonneg_right hshare precision_pos.le
      _ = ofInt t * d' := by unfold ofInt; ring
  have hq1 := (quotient_bounds ht htd hd).2
  exact roundInt_mono (by omega) (by omega)

end

/-- A decay that begins no sooner and ends no sooner leaves no less. -/
theorem curve_mono {p q : Params} (hp : p.Sane) (hq : q.Sane)
    (hbegin : p.durationUntilDecay.toInt ≤ q.durationUntilDecay.toInt)
    (hend : p.durationUntilDecay.toInt + p.durationOfDecay.toInt ≤
      q.durationUntilDecay.toInt + q.durationOfDecay.toInt) {amount elapsed : ℤ}
    (h0 : 0 ≤ amount) : curve p amount elapsed ≤ curve q amount elapsed := by
  obtain ⟨hpos, -⟩ := curve_mem (e := elapsed) hq h0
  by_cases hfull : elapsed ≤ q.durationUntilDecay.toInt
  · rw [show curve q amount elapsed = amount from if_pos hfull]
    exact (curve_mem hp h0).2
  by_cases hended : p.durationUntilDecay.toInt + p.durationOfDecay.toInt < elapsed
  · rw [show curve p amount elapsed = 0 by
      unfold curve
      rw [if_neg (by have := hp.decay_nonneg; omega), if_pos hended]]
    exact hpos
  obtain ⟨hpu, hpd, -⟩ := hp
  obtain ⟨hqu, hqd, -⟩ := hq
  unfold curve
  rw [if_neg (by omega), if_neg hended, if_neg hfull, if_neg (by omega)]
  refine Int.ediv_le_ediv (by decide) (Int.mul_le_mul_of_nonneg_left ?_ h0)
  refine tenThousandths_le (by omega) (by omega) (by omega) (by omega) ?_
  generalize p.durationUntilDecay.toInt = u at *
  generalize p.durationOfDecay.toInt = d at *
  generalize q.durationUntilDecay.toInt = u' at *
  generalize q.durationOfDecay.toInt = d' at *
  -- the later decay is behind by the delay of its begin, and has as much more time left
  have hlonger : (elapsed - u) * (u + d - u') ≤ (elapsed - u) * d' :=
    Int.mul_le_mul_of_nonneg_left (by omega) (by omega)
  have hgap : 0 ≤ (u' - u) * (u + d - elapsed) := Int.mul_nonneg (by omega) (by omega)
  calc (elapsed - u') * d
      = (elapsed - u) * (u + d - u') - (u' - u) * (u + d - elapsed) := by ring
    _ ≤ (elapsed - u) * d' := by omega

/-- **The upgrade takes nothing from anybody.**  Where the airdrop was to decay from the 37th
day at the latest, and to end on the 67th at the latest, an upgrade in any reachable world
leaves the records as they are, and makes none of them worth less, for any action and at any
time. -/
theorem upgrade_takes_nothing {bank : Ledger Holder String} {records : List ClaimRecord}
    (hn : ∀ d, 0 ≤ bank.bal .module d) (hgen : initGenesis env bank records = some s₀)
    (hp : ctx.params.Sane) (hbegin : ctx.params.durationUntilDecay.toInt ≤ (days 37).toInt)
    (hend : ctx.params.durationUntilDecay.toInt + ctx.params.durationOfDecay.toInt ≤
      (days 67).toInt) {actions : List UpgradeAction}
    (hrun : Runs.run (UpgradeWorld.step env) (.start s₀ ctx) actions = some w)
    (hup : w.step env .upgrade = some w') :
    w'.world.store.records = w.world.store.records ∧
      ∀ (r : ClaimRecord) (a : Action) (time : ℤ), r.Regular a →
        ctx.params.airdropStartTime ≤ time → ∃ before after,
          worthAt w.world.ctx.params r a time = some before ∧
          worthAt w'.world.ctx.params r a time = some after ∧ before ≤ after := by
  have ht := run_traced hn hgen hrun
  have hrecords : w'.world.store.records = w.world.store.records ∧
      w'.world.ctx.params = ctx.params.updated := by
    cases UpgradeWorld.step_outcome hup with
    | refilled hfill =>
      refine ⟨?_, ht.updated_params⟩
      simp [UpgradeWorld.upgraded, UpgradeStore.refilled, UpgradeWorld.upgradeStore]
    | updated hfill =>
      refine ⟨?_, ht.updated_params⟩
      simp [UpgradeWorld.upgraded, UpgradeWorld.upgradeStore]
  refine ⟨hrecords.1, fun r a time hr hstart => ?_⟩
  have hsame : ∀ q : Params, q = ctx.params ∨ q = ctx.params.updated →
      q.Sane ∧ q.airdropStartTime = ctx.params.airdropStartTime ∧
        q.durationUntilDecay.toInt ≤ (days 37).toInt ∧
        q.durationUntilDecay.toInt + q.durationOfDecay.toInt ≤ (days 67).toInt := by
    rintro q (rfl | rfl)
    · exact ⟨hp, rfl, hbegin, hend⟩
    · exact ⟨Params.updated_sane _, rfl, le_rfl,
        show (days 37).toInt + (days 30).toInt ≤ (days 67).toInt by decide⟩
  have hbefore : w.world.ctx.params = ctx.params ∨ w.world.ctx.params = ctx.params.updated := by
    rw [ht.params]
    split
    · exact .inr rfl
    · exact .inl rfl
  obtain ⟨hsane, hstart', hu, hd⟩ := hsame _ hbefore
  rw [hrecords.2]
  refine ⟨_, _, worthAt_eq hsane hr (by rw [hstart']; exact hstart),
    worthAt_eq (Params.updated_sane _) hr hstart, ?_⟩
  rw [hstart']
  exact curve_mono hsane (Params.updated_sane _) hu
    (hd.trans (show (days 67).toInt ≤ (days 37).toInt + (days 30).toInt by decide)) hr.nonneg

namespace Sample

/-- A thousand coins in the module, and enough for the upgrade in the reserve. -/
def fundedBank : Ledger Holder String :=
  Ledger.credit (Ledger.credit ∅ .module defaultClaimDenom 1000) .reserve defaultClaimDenom
    amountToSend

theorem fundedBank_nonneg (d : String) : 0 ≤ fundedBank.bal .module d := by
  have h0 : Ledger.bal (∅ : Ledger Holder String) .module d = 0 := rfl
  rw [fundedBank, Ledger.bal_credit, Ledger.bal_credit, h0]
  simp only [reduceCtorEq, false_and, if_false, true_and]
  split <;> omega

/-- The airdrop ends and is swept; the upgrade brings it back, a claim is paid, and on the
67th day it ends again. -/
def revival : List UpgradeAction :=
  [.msg (.nextBlock 201), .msg (.nextBlock 300), .upgrade, .msg (.claimArkeo holder),
    .msg (.nextBlock ((days 67).toInt + 1)), .msg (.nextBlock ((days 67).toInt + 2))]

/-- Another upgrade, and a claim that comes too late. -/
def aftermath : List UpgradeAction := [.upgrade, .msg (.claimArkeo holder)]

theorem revival_run : ∃ s₀ w w', initGenesis Sample.env fundedBank records = some s₀ ∧
    Runs.run (UpgradeWorld.step Sample.env) (.start s₀ Sample.ctx) revival = some w ∧
    Runs.run (UpgradeWorld.step Sample.env) w aftermath = some w' ∧
    w.swept = [1000, amountToSend - 10] ∧ w.world.store.moved = true ∧
    w.paramsUpdated = true ∧ w.tokensTransferred = true ∧
    w.world.ctx.params.endTime < w.world.ctx.blockTime ∧ w'.world.ctx.blockTime < 2 ^ 63 := by
  have h : ((initGenesis Sample.env fundedBank records).bind fun s₀ =>
      (Runs.run (UpgradeWorld.step Sample.env) (.start s₀ Sample.ctx) revival).bind fun w =>
        (Runs.run (UpgradeWorld.step Sample.env) w aftermath).map fun w' =>
          (w.swept, (w.world.store.moved, w.paramsUpdated, w.tokensTransferred),
            w.world.ctx.blockTime - w.world.ctx.params.endTime, w'.world.ctx.blockTime)) =
      some ([1000, amountToSend - 10], (true, true, true), 2, (days 67).toInt + 2) := by
    decide +kernel
  obtain ⟨s₀, hs, h⟩ := Option.bind_eq_some_iff.mp h
  obtain ⟨w, hw, h⟩ := Option.bind_eq_some_iff.mp h
  obtain ⟨w', hw', h⟩ := Option.map_eq_some_iff.mp h
  simp only [Prod.mk.injEq] at h
  obtain ⟨hswept, ⟨hmoved, hupd, htrans⟩, hend, htime⟩ := h
  refine ⟨s₀, w, w', hs, hw, hw', hswept, hmoved, hupd, htrans, by omega, ?_⟩
  rw [htime]
  decide

/-- The coins of the revived airdrop add up. -/
theorem revival_traced : ∃ s₀ w, initGenesis Sample.env fundedBank records = some s₀ ∧
    Runs.run (UpgradeWorld.step Sample.env) (.start s₀ Sample.ctx) revival = some w ∧
    w.swept = [1000, amountToSend - 10] ∧
    w.world.store.bank.bal .module defaultClaimDenom + w.world.store.paidIn defaultClaimDenom +
      w.swept.sum = fundedBank.bal .module defaultClaimDenom + amountToSend := by
  obtain ⟨s₀, w, -, hs, hw, -, hswept, -, -, htrans, -, -⟩ := revival_run
  obtain ⟨-, hmodule, -, -, -, -⟩ := airdrop_funds_traced fundedBank_nonneg hs hw
  have h := (hmodule defaultClaimDenom).2
  rw [htrans, if_pos (show defaultClaimDenom = Sample.ctx.params.claimDenom from rfl),
    if_pos ⟨rfl, rfl⟩] at h
  exact ⟨s₀, w, hs, hw, hswept, h⟩

/-- Neither of the two steps that follow moves a coin. -/
theorem revival_ends : ∃ s₀ w w', initGenesis Sample.env fundedBank records = some s₀ ∧
    Runs.run (UpgradeWorld.step Sample.env) (.start s₀ Sample.ctx) revival = some w ∧
    Runs.run (UpgradeWorld.step Sample.env) w aftermath = some w' ∧
    w'.swept = [1000, amountToSend - 10] ∧
    w'.world.store.payments = w.world.store.payments := by
  obtain ⟨s₀, w, w', hs, hw, hw', hswept, hmoved, hupd, -, hend, htime⟩ := revival_run
  obtain ⟨hsame, -, -, hpay, -⟩ := upgraded_airdrop_ends fundedBank_nonneg hs hw hupd hend hmoved hw'
    (show w'.world.ctx.blockTime - 0 < 2 ^ 63 by omega)
  exact ⟨s₀, w, w', hs, hw, hw', hsame.trans hswept, hpay⟩

/-- The amount for the claim is worth no less after the upgrade, at any time. -/
theorem revival_takes_nothing : ∃ s₀ w w', initGenesis Sample.env fundedBank records = some s₀ ∧
    Runs.run (UpgradeWorld.step Sample.env) (.start s₀ Sample.ctx) (revival.take 2) = some w ∧
    w.step Sample.env .upgrade = some w' ∧ w'.world.store.records = w.world.store.records ∧
    ∀ time, 0 ≤ time → ∃ before after,
      worthAt w.world.ctx.params record .claim time = some before ∧
      worthAt w'.world.ctx.params record .claim time = some after ∧ before ≤ after := by
  obtain ⟨s₀, _, _, hs, hrun, -⟩ := revival_run
  obtain ⟨w, hw, hrest⟩ := Runs.run_append.mp
    (show Runs.run _ _ (revival.take 2 ++ revival.drop 2) = _ from hrun)
  obtain ⟨w', hw', -⟩ := Runs.run_cons.mp hrest
  have hsane : Sample.ctx.params.Sane := ⟨by decide, by decide, by decide⟩
  obtain ⟨hrecords, hworth⟩ :=
    upgrade_takes_nothing fundedBank_nonneg hs hsane (by decide) (by decide) hw hw'
  exact ⟨s₀, w, w', hs, hw, hw', hrecords, fun time h0 =>
    hworth record .claim time ⟨by decide, .inr ⟨by decide, by decide⟩⟩ h0⟩

end Sample

end Arkeo.Airdrop
