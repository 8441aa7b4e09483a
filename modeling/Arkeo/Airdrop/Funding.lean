import Arkeo.Airdrop.Upgrade

/-! # The airdrop can pay

When the module's account holds the amounts of the genesis, it holds what is left of them as
long as it is not swept, and again after the coins were taken back from the reserve: no claim
then fails for lack of funds (`airdrop_solvent`).  Coins of one denomination do not pay for
another, so this is about an airdrop in a single one: every amount that is worth something, in
every record of every run, is in the denomination of the module.
-/
namespace Arkeo.Airdrop
open Exec

variable {env : Env} {ctx : Context} {s s' s₀ : Store} {w w' : UpgradeWorld} {r q : ClaimRecord}
  {c d e : Coin} {a : Action} {act : UpgradeAction} {m : Msg}

/-! ## One denomination -/

/-- The coin is worth nothing, or it is in the denomination of the module. -/
def Coin.Claims (c : Coin) : Prop := c.value ≠ 0 → c.denom = defaultClaimDenom

def ClaimRecord.Claims (r : ClaimRecord) : Prop := ∀ a, (r.amount a).Claims

theorem Coin.claims_default : ({} : Coin).Claims := fun h => absurd rfl h

theorem ClaimRecord.claims_iff :
    r.Claims ↔ r.amountClaim.Claims ∧ r.amountVote.Claims ∧ r.amountDelegate.Claims := by
  constructor
  · intro h
    exact ⟨h .claim, h .vote, h .delegate⟩
  · rintro ⟨hclaim, hvote, hdelegate⟩ a
    cases a with
    | claim => exact hclaim
    | vote => exact hvote
    | delegate => exact hdelegate

/-- Every record is in the denomination of the module, and so is every payment. -/
structure Store.Claims (s : Store) : Prop where
  records : ∀ k r, s.records.lookup k = some r → r.Claims
  payments : ∀ pay ∈ s.payments, pay.coin.denom = defaultClaimDenom

theorem Store.Claims.put (h : s.Claims) (hr : r.Claims) : (s.put r).Claims := by
  refine ⟨fun k q hl => ?_, h.payments⟩
  unfold Store.put at hl
  by_cases hk : k = keyOf r.chain r.address
  · rw [hk, AList.lookup_insert] at hl
    obtain rfl := Option.some.inj hl
    intro a hv
    have hdenom := hr a (by rwa [ClaimRecord.value_stored] at hv)
    cases a <;> exact hdenom
  · rw [AList.lookup_insert_ne hk] at hl
    exact h.records k q hl

theorem Store.Claims.get (h : s.Claims) (address : String) (chain : Chain) :
    (getClaimRecord address chain s).Claims := by
  unfold getClaimRecord
  cases hl : s.records.lookup (keyOf chain address) with
  | none => exact fun a => by cases a <;> exact Coin.claims_default
  | some r => exact h.records _ r hl

/-! ## Amounts that are put together -/

theorem mergeAmounts_claims (hc : c.Claims) (hd : d.Claims) (h : mergeAmounts c d = some e) :
    e.Claims := by
  unfold mergeAmounts at h
  split at h
  · obtain rfl := Option.some.inj h
    exact hd
  · unfold Coin.add at h
    split at h
    · cases h
    · rename_i hdenom
      simp only [Option.bind_eq_some_iff] at h
      obtain ⟨m, hm, n, hn, h⟩ := h
      split at h
      · obtain rfl := Option.some.inj h
        intro hv
        have hcv : c.value = m := by rw [Coin.value, hm, Option.getD_some]
        have hdv : d.value = n := by rw [Coin.value, hn, Option.getD_some]
        -- one of the two is worth something, and both have the same denomination
        by_cases hzero : c.value = 0
        · refine (not_not.mp hdenom).trans (hd ?_)
          intro hzero'
          exact hv (show m + n = 0 by omega)
        · exact hc hzero
      · cases h

theorem combine_claims (h : combine c d = some e) : e.Claims := by
  unfold combine at h
  simp only [Option.bind_eq_bind, Option.bind_eq_some_iff] at h
  obtain ⟨m, -, n, -, h⟩ := h
  unfold newCoin at h
  split at h
  · obtain rfl := Option.some.inj h
    exact fun _ => rfl
  · cases h

theorem mergeClaimRecords_claims {q m : ClaimRecord} (hr : r.Claims) (hq : q.Claims)
    (h : mergeClaimRecords r q = .ok m) : m.Claims := by
  unfold mergeClaimRecords at h
  split at h
  · cases h
    exact hq
  split at h
  · cases h
    exact hr
  split at h
  · cases h
  split at h
  · cases h
  split at h
  · rename_i claim delegate vote hclaim hdelegate hvote
    cases h
    exact ClaimRecord.claims_iff.mpr ⟨mergeAmounts_claims (hr .claim) (hq .claim) hclaim,
      mergeAmounts_claims (hr .vote) (hq .vote) hvote,
      mergeAmounts_claims (hr .delegate) (hq .delegate) hdelegate⟩
  · cases h

theorem claimableAmount_claims (hr : r.Claims) (h : claimableAmount ctx r a = .ok c) : c.Claims := by
  by_cases hnothing : r.isEmpty = true ∨ ¬ctx.Started ∨ (r.amount a).value = 0
  · rw [claimableAmount_nothing hnothing] at h
    cases h
    exact Coin.claims_default
  · simp only [not_or, not_not, Bool.not_eq_true] at hnothing
    obtain ⟨hne, hs, hv⟩ := hnothing
    rw [claimableAmount_eq hne hs hv] at h
    split at h
    · cases h
    split at h
    · cases h
      exact fun _ => hr a hv
    · cases h

theorem ClaimRecord.Claims.setAmount (hr : r.Claims) (a : Action) : (r.setAmount a {}).Claims := by
  have hother : ∀ a', a' ≠ a → (r.setAmount a {}).amount a' = r.amount a' := by
    intro a' hne
    cases a <;> cases a' <;> first | rfl | exact absurd rfl hne
  intro a'
  by_cases h : a' = a
  · intro hv
    rw [h, ClaimRecord.value_setAmount_self] at hv
    exact absurd rfl hv
  · rw [hother a' h]
    exact hr a'

theorem ClaimRecord.claims_setAllAmounts (r : ClaimRecord) : (r.setAllAmounts {}).Claims :=
  ClaimRecord.claims_iff.mpr ⟨Coin.claims_default, Coin.claims_default, Coin.claims_default⟩

/-! ## What the messages write -/

/-- What comes after a step may rely on what its result is known to be. -/
theorem bind_of {ε σ α β : Type} {P : σ → Prop} {Q : α → Prop} {x : EStateM ε σ α}
    {f : α → EStateM ε σ β} (hx : Preserves P x) (hq : ∀ s a t, P s → x s = .ok a t → Q a)
    (hf : ∀ a, Q a → Preserves P (f a)) : Preserves P (x >>= f) := by
  intro s hs
  have h := hx s hs
  change P (finalStore (EStateM.bind x f s))
  unfold EStateM.bind
  cases hr : x s with
  | ok a t =>
    rw [hr] at h
    exact hf a (hq s a t hs hr) t h
  | error e t =>
    rw [hr] at h
    exact h

/-- Reading a record, in a store in one denomination. -/
theorem readClaims {α : Type} {address : String} {chain : Chain} {k : ClaimRecord → Keeper α}
    (hk : ∀ r : ClaimRecord, r.Claims → Preserves Store.Claims (k r)) :
    Preserves Store.Claims (reading (getClaimRecord address chain) >>= k) := by
  refine bind_of (readOnly_reading _).preserves (fun t r u ht hread => ?_) hk
  obtain ⟨rfl, -⟩ := reading_ok.mp hread
  exact ht.get address chain

theorem setClaimRecord_claims (hr : r.Claims) : Preserves Store.Claims (setClaimRecord env r) :=
  .failIf fun _ => .writing fun _ h => h.put hr

theorem claimCoinsForAction_claims (address : String) (a : Action) :
    Preserves Store.Claims (claimCoinsForAction env ctx address a) := by
  have hclaimable : ∀ s c t, s.Claims → getClaimableAmountForAction ctx address a .arkeo s = .ok c t →
      c.Claims := by
    intro s c t hs h
    unfold getClaimableAmountForAction at h
    rw [reading_bind] at h
    exact claimableAmount_claims (hs.get address .arkeo) (fromExcept_ok.mp h).1
  refine bind_of (readOnly_getClaimable _ _ _ _).preserves hclaimable fun claimable hdenom => ?_
  split
  · exact (readOnly_pure _).preserves
  rename_i hpos
  refine readClaims fun r hr => ?_
  refine (readOnly_ofOption _ _).preserves.bind fun account => ?_
  refine (sendCoins_preserves fun t ht _ _ => ?_).bind fun _ =>
    (setClaimRecord_claims (hr.setAmount a)).bind fun _ => (readOnly_pure _).preserves
  refine ⟨ht.records, fun pay hpay => ?_⟩
  rcases List.mem_append.mp hpay with hold | hnew
  · exact ht.payments pay hold
  · rw [List.mem_singleton.mp hnew]
    refine hdenom fun hzero => hpos ?_
    rw [decide_eq_true hzero, Bool.or_true]

/-- The amounts of one record, for another address. -/
theorem ClaimRecord.Claims.of_amounts (hr : r.Claims) (hq : ∀ a, q.amount a = r.amount a) :
    q.Claims := by
  intro a
  rw [hq]
  exact hr a

theorem mergeInto_claims {existing arkeoClaim : ClaimRecord} {α : Type} {k : Coin → Keeper α}
    {address : String} (he : existing.Claims) (hr : arkeoClaim.Claims)
    (hk : ∀ c, Preserves Store.Claims (k c)) :
    Preserves Store.Claims (fromExcept (mergeClaimRecords existing arkeoClaim) >>= fun merged =>
      setClaimRecord env merged >>= fun _ => claimCoinsForAction env ctx address .claim >>= k) := by
  refine bind_of (Q := ClaimRecord.Claims) (readOnly_fromExcept _).preserves
    (fun t m u _ hm => mergeClaimRecords_claims he hr (fromExcept_ok.mp hm).1) fun merged hmerged => ?_
  exact (setClaimRecord_claims hmerged).bind fun _ => (claimCoinsForAction_claims _ _).bind hk

theorem claimEth_claims (creator ethAddress signature : String) :
    Preserves Store.Claims (claimEth env ctx creator ethAddress signature) := by
  refine readClaims fun ethClaim heth => ?_
  refine (readOnly_nothingLeft _).preserves.bind fun _ => .failIf fun _ => ?_
  refine (readOnly_ofOption _ _).preserves.bind fun total => ?_
  refine (readOnly_ofOption _ _).preserves.bind fun ethClaimAmount => .failIf fun _ => ?_
  refine (setClaimRecord_claims ethClaim.claims_setAllAmounts).bind fun _ => ?_
  refine readClaims fun existing he => ?_
  refine (readOnly_claimAmountOf _).preserves.bind fun existingAmount => ?_
  exact mergeInto_claims he (heth.of_amounts fun a => by cases a <;> rfl) fun _ =>
    (readOnly_pure _).preserves

theorem transferClaim_claims (creator dst : String) :
    Preserves Store.Claims (transferClaim env ctx creator dst) := by
  refine readClaims fun original horiginal => ?_
  refine (readOnly_nothingLeft _).preserves.bind fun _ => .failIf fun _ => .failIf fun _ => ?_
  refine (setClaimRecord_claims original.claims_setAllAmounts).bind fun _ => ?_
  refine readClaims fun existing he => ?_
  exact mergeInto_claims he (horiginal.of_amounts fun a => by cases a <;> rfl) fun _ =>
    (readOnly_pure _).preserves

theorem claimThorchain_claims (creator src dst : String) :
    Preserves Store.Claims (claimThorchain env creator src dst) := by
  have hcombine : ∀ c d, ∀ (s : Store) (e : Coin) (t : Store), s.Claims →
      (ofOption (combine c d) .panic : Keeper Coin) s = .ok e t → e.Claims :=
    fun _ _ _ _ _ _ h => combine_claims (ofOption_ok.mp h).1
  refine .failIf fun _ => .failIf fun _ => ?_
  refine (readOnly_reading _).preserves.bind fun srcClaim => ?_
  refine (readOnly_nothingLeft _).preserves.bind fun _ => .failIf fun _ => ?_
  refine (readOnly_reading _).preserves.bind fun dstClaim => ?_
  refine bind_of (readOnly_ofOption _ _).preserves (hcombine _ _) fun claim hclaim => ?_
  refine bind_of (readOnly_ofOption _ _).preserves (hcombine _ _) fun vote hvote => ?_
  refine bind_of (readOnly_ofOption _ _).preserves (hcombine _ _) fun delegate hdelegate => ?_
  refine (setClaimRecord_claims (ClaimRecord.claims_iff.mpr ⟨?_, ?_, ?_⟩)).bind fun _ =>
    (setClaimRecord_claims (ClaimRecord.claims_iff.mpr ⟨hclaim, hvote, hdelegate⟩)).bind fun _ =>
      (readOnly_pure _).preserves
  · exact fun _ => rfl
  · exact fun _ => rfl
  · exact fun _ => rfl

theorem handler_claims (hm : ∀ time, m ≠ .nextBlock time) :
    Preserves Store.Claims (handler env ctx m) := by
  cases m with
  | claimArkeo creator =>
    exact .failIf fun _ => (claimArkeo_preserves claimCoinsForAction_claims creator).bind fun _ =>
      (readOnly_pure _).preserves
  | claimEth creator ethAddress signature =>
    exact .failIf fun _ => (claimEth_claims creator ethAddress signature).bind fun _ =>
      (readOnly_pure _).preserves
  | claimThorchain creator src dst =>
    exact .failIf fun _ => (claimThorchain_claims creator src dst).bind fun _ =>
      (readOnly_pure _).preserves
  | transferClaim creator dst => exact .failIf fun _ => transferClaim_claims creator dst
  | vote voter => exact claimLogged_preserves claimCoinsForAction_claims voter .vote
  | delegate delegator => exact claimLogged_preserves claimCoinsForAction_claims delegator .delegate
  | nextBlock time => exact absurd rfl (hm time)

/-- **Every step stays in the denomination of the module.** -/
theorem step_claims {v v' : World} (hs : v.store.Claims) (h : step env v m = some v') :
    v'.store.Claims := by
  by_cases hm : ∃ time, m = .nextBlock time
  · obtain ⟨time, rfl⟩ := hm
    rcases nextBlock_sweeps h with hsame | ⟨-, -, hsweep⟩
    · rw [hsame]
      exact hs
    · exact ⟨by rw [hsweep.records]; exact hs.records, by rw [hsweep.payments]; exact hs.payments⟩
  · have hm' : ∀ time, m ≠ .nextBlock time := fun time he => hm ⟨time, he⟩
    rcases (step_msg h hm').2 with hc | hsame
    · exact (handler_claims hm').committed hs hc
    · rw [hsame]
      exact hs

theorem initGenesis_claims {bank : Ledger Holder String} {records : List ClaimRecord}
    (hr : ∀ r ∈ records, r.Claims) (h : initGenesis env bank records = some s) : s.Claims := by
  obtain ⟨_, hloop⟩ := committed_some.mp h
  refine (forEach_induct (P := fun l t => (∀ r ∈ l, r.Claims) ∧ Store.Claims t) ?_ ⟨hr, ?_⟩ hloop).2
  · rintro r l t t' ⟨hl, ht⟩ hset
    obtain ⟨-, rfl⟩ := setClaimRecord_ok.mp hset
    obtain ⟨hr, hl⟩ := List.forall_mem_cons.mp hl
    exact ⟨hl, ht.put hr⟩
  · refine ⟨fun _ _ hl => ?_, nofun⟩
    cases hl

/-! ## Solvency -/

theorem Store.Claims.paidIn_eq (h : s.Claims) : s.paidIn defaultClaimDenom = s.paidOut := by
  unfold Store.paidIn Store.paidOut
  congr 1
  refine List.map_congr_left fun pay hpay => ?_
  exact if_pos (h.payments pay hpay)

/-- No amount is more than all of them. -/
theorem Store.Sound.amountAt_le_total (h : s.Sound env) (k : Key) (a : Action) :
    s.amountAt k a ≤ s.total := by
  have hn : ∀ x ∈ s.slots.map fun t => s.amountAt t.1 t.2, 0 ≤ x := by
    intro x hx
    obtain ⟨t, -, rfl⟩ := List.mem_map.mp hx
    exact h.amountAt_nonneg t.1 t.2
  cases hl : s.records.lookup k with
  | none =>
    rw [Store.amountAt, hl]
    exact List.sum_nonneg hn
  | some r =>
    refine List.single_le_sum hn _ (List.mem_map.mpr ⟨(k, a), ?_, rfl⟩)
    refine List.mem_flatMap.mpr ⟨k, ?_, List.mem_map.mpr ⟨a, by cases a <;> decide, rfl⟩⟩
    exact AList.mem_keys.mp (AList.lookup_isSome.mp (by rw [hl]; rfl))

theorem claimableAmount_error {e : Error} (h : claimableAmount ctx r a = .error (.err e)) :
    e = .airdropEnded := by
  unfold claimableAmount at h
  simp only at h
  split at h
  · cases h
  split at h
  · cases h
  split at h
  · cases h
    rfl
  split at h <;> cases h

/-- The module that holds all amounts can pay any of them. -/
theorem claimCoinsForAction_funded (hs : s.Sound env) (hp : ctx.params.NoUnderflow)
    (hc : s.Claims) (hfund : s.total ≤ s.bank.bal .module defaultClaimDenom) (address : String)
    (a : Action) : claimCoinsForAction env ctx address a s ≠ .error (.err .insufficientFunds) s' := by
  intro hclaim
  unfold claimCoinsForAction at hclaim
  rcases bind_error.mp hclaim with h | ⟨claimable, t, hread, h⟩
  · unfold getClaimableAmountForAction at h
    rw [reading_bind] at h
    cases claimableAmount_error (fromExcept_error.mp h).1
  obtain rfl : t = s := by
    have hro := readOnly_getClaimable ctx address a .arkeo s
    rw [hread] at hro
    exact hro
  split at h
  · cases h
  rename_i hpos
  rw [reading_bind] at h
  rcases bind_error.mp h with h | ⟨account, u, haccount, h⟩
  · cases (ofOption_error.mp h).2.1
  obtain ⟨-, rfl⟩ := ofOption_ok.mp haccount
  unfold getClaimableAmountForAction at hread
  rw [reading_bind] at hread
  have hamount := (fromExcept_ok.mp hread).1
  have hdenom : claimable.denom = defaultClaimDenom := by
    refine claimableAmount_claims (hc.get address .arkeo) hamount fun hzero => hpos ?_
    rw [decide_eq_true hzero, Bool.or_true]
  have hvalue := value_getClaimRecord address .arkeo t a
  have hle := (claimableAmount_le hp (by rw [hvalue]; exact hs.amountAt_nonneg _ a) hamount).2
  rw [hvalue] at hle
  have hcover : claimable.value ≤ t.bank.bal .module claimable.denom := by
    rw [hdenom]
    exact hle.trans ((hs.amountAt_le_total _ a).trans hfund)
  rcases bind_error.mp h with h | ⟨_, u, -, h⟩
  · unfold sendCoinsFromModuleToAccount at h
    rcases bind_error.mp h with h | ⟨_, u, hu, h⟩
    · cases (failIf_error.mp h).2.1
    obtain ⟨-, rfl⟩ := failIf_ok.mp hu
    rcases bind_error.mp h with h | ⟨_, u, hu, h⟩
    · cases (failIf_error.mp h).2.1
    obtain ⟨-, rfl⟩ := failIf_ok.mp hu
    rw [reading_bind] at h
    rcases bind_error.mp h with h | ⟨_, u, -, h⟩
    · have hless := of_decide_eq_true (failIf_error.mp h).1
      omega
    · cases h
  · rcases bind_error.mp h with h | ⟨_, u, -, h⟩
    · unfold setClaimRecord at h
      rcases bind_error.mp h with h | ⟨_, u, -, h⟩
      · cases (failIf_error.mp h).2.1
      · cases h
    · cases h

/-- Where the amounts are does not depend on the bank or the marks. -/
theorem Backed.of_same {v v' : World} (h : Backed env s₀ v) (hr : v'.store.records = v.store.records)
    (hpay : v'.store.payments = v.store.payments) (hplace : v'.place = v.place) :
    Backed env s₀ v' := by
  refine ⟨?_, fun k a => ?_, fun n pay hn => ?_⟩
  · unfold Store.Sound
    rw [hr]
    exact h.sound
  · have hslot := h.slots k a
    unfold World.worth at hslot ⊢
    rw [Store.amountAt, hr, hplace]
    exact hslot
  · rw [hpay] at hn
    have hworth := h.payments n pay hn
    unfold World.worth at hworth ⊢
    rw [hplace]
    exact hworth

/-- Every amount is accounted for, in the records and in the bank. -/
structure Funded (env : Env) (s₀ : Store) (p : Params) (w : UpgradeWorld) : Prop where
  traced : Traced s₀ p w
  backed : Backed env s₀ w.world
  claims : w.world.store.Claims

theorem UpgradeOutcome.funded {p : Params} (h : UpgradeOutcome env w act w')
    (hf : Funded env s₀ p w) (h₀ : s₀.Sound env) (hp : p.NoUnderflow)
    (hm : ∀ m, act = .msg m → m.spelledApart = true) : Funded env s₀ p w' := by
  refine ⟨h.traced hf.traced, ?_, ?_⟩
  · cases h with
    | delivered m v hstep =>
      refine step_backed h₀ hf.backed ?_ (hm m rfl) hstep
      rw [hf.traced.params]
      split
      · exact (show -2 ^ 63 ≤ (days 37).toInt + (days 30).toInt by decide)
      · exact hp
    | refilled hfill =>
      refine hf.backed.of_same ?_ ?_ rfl
      · simp [UpgradeWorld.upgraded, UpgradeStore.refilled, UpgradeWorld.upgradeStore]
      · simp [UpgradeWorld.upgraded, UpgradeStore.refilled, UpgradeWorld.upgradeStore]
    | updated hfill =>
      refine hf.backed.of_same ?_ ?_ rfl
      · simp [UpgradeWorld.upgraded, UpgradeWorld.upgradeStore]
      · simp [UpgradeWorld.upgraded, UpgradeWorld.upgradeStore]
    | transferred src dst denom amount _ _ _ _ => exact hf.backed.of_same rfl rfl rfl
    | refused src dst denom amount => exact hf.backed
  · have hsame : ∀ t : Store, t.records = w.world.store.records →
        t.payments = w.world.store.payments → t.Claims := by
      intro t hr hpay
      exact ⟨by rw [hr]; exact hf.claims.records, by rw [hpay]; exact hf.claims.payments⟩
    cases h with
    | delivered m v hstep => exact step_claims hf.claims hstep
    | refilled hfill =>
      refine hsame _ ?_ ?_
      · simp [UpgradeWorld.upgraded, UpgradeStore.refilled, UpgradeWorld.upgradeStore]
      · simp [UpgradeWorld.upgraded, UpgradeStore.refilled, UpgradeWorld.upgradeStore]
    | updated hfill =>
      refine hsame _ ?_ ?_
      · simp [UpgradeWorld.upgraded, UpgradeWorld.upgradeStore]
      · simp [UpgradeWorld.upgraded, UpgradeWorld.upgradeStore]
    | transferred src dst denom amount _ _ _ _ => exact hsame _ rfl rfl
    | refused src dst denom amount => exact hf.claims

/-- What is left is in the module's account, unless it was swept. -/
theorem Funded.total_le (hf : Funded env s₀ ctx.params w) (h₀ : s₀.Sound env)
    (hdenom : ctx.params.claimDenom = defaultClaimDenom)
    (hfund : s₀.total ≤ s₀.bank.bal .module defaultClaimDenom) (hcap : s₀.total ≤ amountToSend)
    (hunmarked : w.world.store.moved = false) :
    w.world.store.total ≤ w.world.store.bank.bal .module defaultClaimDenom := by
  have htotal := hf.backed.total_le h₀
  have hmodule := hf.traced.module defaultClaimDenom
  rw [hf.claims.paidIn_eq, hdenom, if_pos rfl] at hmodule
  cases htrans : w.tokensTransferred with
  | false =>
    -- nothing was swept yet
    have hnone := hf.traced.sweeps
    rw [hunmarked, htrans] at hnone
    have hempty : w.swept = [] := List.length_eq_zero_iff.mp (Nat.le_zero.mp hnone)
    rw [htrans, hempty] at hmodule
    simp only [List.sum_nil, Bool.false_eq_true, and_false, if_false] at hmodule
    omega
  | true =>
    have hfirst := hf.traced.first hunmarked
    rw [hdenom] at hfirst
    rw [htrans, if_pos ⟨rfl, rfl⟩] at hmodule
    omega

/-- **The airdrop can pay.**  Let the claims be in `uarkeo`, with durations whose sum does not
underflow, let the module hold the amounts of the genesis, and let these be in that denomination,
not negative and together no more than the 23 million that the upgrade takes back.  Then in every
run whose messages hand no record over to another spelling of its own address, at every time at
which the end blocker has not swept the module, it holds what is left in the records, and no
claim for an action, of whatever address, fails for lack of funds. -/
theorem airdrop_solvent (hp : ctx.params.NoUnderflow)
    (hdenom : ctx.params.claimDenom = defaultClaimDenom) {bank : Ledger Holder String}
    {records : List ClaimRecord} (hn : ∀ d, 0 ≤ bank.bal .module d)
    (hr : ∀ r ∈ records, r.Claims ∧ ∀ a, 0 ≤ (r.amount a).value)
    (hgen : initGenesis env bank records = some s₀)
    (hfund : s₀.total ≤ bank.bal .module defaultClaimDenom) (hcap : s₀.total ≤ amountToSend)
    {actions : List UpgradeAction} (hm : ∀ m, .msg m ∈ actions → m.spelledApart = true)
    (hrun : Runs.run (UpgradeWorld.step env) (.start s₀ ctx) actions = some w)
    (hunmarked : w.world.store.moved = false) :
    w.world.store.total ≤ w.world.store.bank.bal .module defaultClaimDenom ∧
      ∀ address a s', claimCoinsForAction env w.world.ctx address a w.world.store ≠
        .error (.err .insufficientFunds) s' := by
  obtain ⟨h₀, hpay⟩ := initGenesis_sound (fun r hmem => (hr r hmem).2) hgen
  obtain ⟨hbank, -⟩ := initGenesis_bank hgen
  have hstart : Funded env s₀ ctx.params (.start s₀ ctx) :=
    ⟨start_traced hpay (by rw [hbank]; exact hn), genesis_backed h₀ hpay ctx,
      initGenesis_claims (fun r hmem => (hr r hmem).1) hgen⟩
  have hguard : Runs.Guarded (UpgradeWorld.step env)
      (fun _ act => ∀ m, act = .msg m → m.spelledApart = true) (.start s₀ ctx) actions := by
    refine Runs.guarded_of_mem (fun _ act hact m hmsg => hm m ?_) _
    rw [← hmsg]
    exact hact
  have hf : Funded env s₀ ctx.params w := Runs.run_induct_of_guarded
    (fun _ _ _ hf hg hstep => (UpgradeWorld.step_outcome hstep).funded hf h₀ hp hg) hstart hguard hrun
  have htotal := hf.total_le h₀ hdenom (by rw [hbank]; exact hfund) hcap hunmarked
  refine ⟨htotal, fun address a s' => ?_⟩
  refine claimCoinsForAction_funded hf.backed.sound ?_ hf.claims htotal address a
  rw [hf.traced.params]
  split
  · exact (show -2 ^ 63 ≤ (days 37).toInt + (days 30).toInt by decide)
  · exact hp

/-- After the upgrade and the first claim of the revived airdrop the other amounts are there. -/
theorem revival_solvent : ∃ s₀ w, initGenesis Sample.env Sample.fundedBank Sample.records = some s₀ ∧
    Runs.run (UpgradeWorld.step Sample.env) (.start s₀ Sample.ctx) (Sample.revival.take 4) = some w ∧
    w.world.store.total ≤ w.world.store.bank.bal .module defaultClaimDenom ∧
    ∀ s', claimCoinsForAction Sample.env w.world.ctx Sample.holder .vote w.world.store ≠
      .error (.err .insufficientFunds) s' := by
  have h : ((initGenesis Sample.env Sample.fundedBank Sample.records).bind fun s₀ =>
      (Runs.run (UpgradeWorld.step Sample.env) (.start s₀ Sample.ctx) (Sample.revival.take 4)).map
        fun w => (s₀.total, w.world.store.moved)) = some (18, false) := by decide +kernel
  obtain ⟨s₀, hs, h⟩ := Option.bind_eq_some_iff.mp h
  obtain ⟨w, hw, h⟩ := Option.map_eq_some_iff.mp h
  simp only [Prod.mk.injEq] at h
  obtain ⟨htotal, hunmarked⟩ := h
  have hr : ∀ r ∈ Sample.records, r.Claims ∧ ∀ a, 0 ≤ (r.amount a).value := by
    intro r hr
    obtain rfl := List.mem_singleton.mp hr
    exact ⟨ClaimRecord.claims_iff.mpr ⟨fun _ => rfl, fun _ => rfl, fun _ => rfl⟩,
      fun a => by cases a <;> decide⟩
  have hfund : s₀.total ≤ Sample.fundedBank.bal .module defaultClaimDenom := by
    rw [htotal]
    decide
  obtain ⟨hle, hclaims⟩ := airdrop_solvent (by decide) rfl Sample.fundedBank_nonneg hr hs hfund
    (by rw [htotal]; decide) (by
      intro m hm
      simp only [Sample.revival, List.take_succ_cons, List.take_zero, List.mem_cons,
        UpgradeAction.msg.injEq, reduceCtorEq, List.not_mem_nil, or_false, false_or] at hm
      obtain rfl | rfl | rfl := hm <;> decide) hw hunmarked
  exact ⟨s₀, w, hs, hw, hle, fun s' => hclaims _ _ s'⟩

end Arkeo.Airdrop
