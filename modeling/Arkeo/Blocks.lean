import Arkeo.Emission
import Arkeo.Halting
import Arkeo.RoundTrip
import Arkeo.ValidatorPayout

/-! # The start of a block

`BeginBlock` as it runs on the chain: the version the validators agree on is stored, the reward
is computed from what the reserve holds and sent out of it, send by send, and the registry is
seeded once.  A send that the reserve cannot cover is logged and passed over.

The sends are those of `validatorPayout`, which knows no bank (`validatorPayout_ok`), and the
rest of the store stays as it is (`BlockFrame`).
-/
namespace Arkeo
open Exec LegacyDec

/-! ## The payout, with its sends -/

namespace Reserve

-- the account of the distribution module, which also holds the community pool
variable (distribution : Bytes)

/-- A coin out of the reserve; a failure of the bank is logged. -/
def send (amount : ℤ) : Keeper Unit := do
  let coin ← newCoin denom amount
  logged (sendFromModuleToAccount .reserve distribution coin .other)

/-- One validator's share. -/
def payValidator (total reward : ℤ) (val : StakingValidator) (totalRemainder : ℤ) : Keeper ℤ := do
  let totalReward := getSafeShare val.delegatorShares total reward
  if totalReward = 0 then pure totalRemainder
  else do
    failIf (2 ^ 63 ≤ truncateInt totalReward) .panic
    let remainder ← ofOption (sub totalReward (ofInt (truncateInt totalReward))) .panic
    let totalRemainder ← ofOption (add totalRemainder remainder) .panic
    send distribution (truncateInt totalReward)
    pure totalRemainder

variable (codec : AddressCodec) (validatorByConsAddr : Bytes → Option StakingValidator)
  (versions : VersionStore)

/-- The loop that pays. -/
def payVotes (total reward : ℤ) : List VoteInfo → ℤ → Keeper ℤ
  | [], totalRemainder => pure totalRemainder
  | vote :: votes, totalRemainder =>
      if vote.blockIdFlag.skipped then payVotes total reward votes totalRemainder
      else match validatorByConsAddr vote.address with
        | none => payVotes total reward votes totalRemainder
        | some val => do
            let _ ← ofOption (codec.valBytes val.operator) .panic
            if validatorVersion codec val.toValidator versions < versions.getVersion then
              payVotes total reward votes totalRemainder
            else do
              let totalRemainder ← payValidator distribution total reward val totalRemainder
              payVotes total reward votes totalRemainder

/-- `ValidatorPayout`. -/
def validatorPayout (votes : List VoteInfo) (reward : ℤ) : Keeper Unit :=
  if reward = 0 then pure ()
  else do
    let total ← ofOption (sumTokens validatorByConsAddr votes 0) .panic
    if total = 0 then pure ()
    else do
      let totalRemainder ←
        payVotes distribution codec validatorByConsAddr versions total reward votes 0
      if totalRemainder = 0 then pure () else send distribution (roundInt totalRemainder)

end Reserve

/-! ## The start of a block -/

/-- What a block is given from outside: the validators that the staking module lists and finds,
the votes of the last commit, and the static table of services as its map is walked. -/
structure BlockInput where
  validators : List Validator
  validatorByConsAddr : Bytes → Option StakingValidator
  votes : List VoteInfo
  entries : List Service

/-- `BeginBlock` after the version is stored. -/
def beginBlock (codec : AddressCodec) (distribution : Bytes) (ctx : Context)
    (versions : VersionStore) (params : ParamsStore) (input : BlockInput) (seeded : Bool) :
    Keeper Unit := do
  let reserveSupply ← reading fun s => s.balance (.module .reserve) denom
  let blockReward ← ofOption (params.beginBlockReward ctx.blockHeight reserveSupply) .panic
  Reserve.validatorPayout distribution codec input.validatorByConsAddr versions input.votes
    (ofInt blockReward)
  ensureServiceRegistrySeeded input.entries seeded

variable {cr : Crypto} {codec : AddressCodec} {distribution : Bytes} {ctx : Context}
  {s s' : ChainState} {versions : VersionStore} {params : ParamsStore} {input : BlockInput}
  {validatorByConsAddr : Bytes → Option StakingValidator} {votes : List VoteInfo} {seeded : Bool}
  {total reward r x : ℤ} {p p' : Payout} {m : Moved} {u : Unit} {d : String}

/-! ## Sends out of the reserve -/

namespace ChainState

/-- The store after a send that the reserve may not cover. -/
def offered (distribution : Bytes) (s : ChainState) (amount : ℤ) : ChainState :=
  if s.balance (.module .reserve) denom < amount then s
  else s.sent (.module .reserve) (.user distribution) ⟨denom, amount⟩ .other

/-- The store after some sends. -/
def offers (distribution : Bytes) (s : ChainState) (amounts : List ℤ) : ChainState :=
  amounts.foldl (offered distribution) s

@[simp] theorem offers_nil : s.offers distribution [] = s := rfl

theorem offers_append (s : ChainState) (xs : List ℤ) (y : ℤ) :
    s.offers distribution (xs ++ [y]) = (s.offers distribution xs).offered distribution y := by
  rw [offers, List.foldl_append]
  rfl

theorem offered_zero (s : ChainState) : s.offered distribution 0 = s := by
  unfold offered
  split
  · rfl
  · exact s.sent_zero _ _ _ _

/-- What survives a send that is covered survives them all. -/
theorem offers_induct {P : ChainState → Prop} {xs : List ℤ} (hxs : ∀ x ∈ xs, 0 ≤ x) (hs : P s)
    (h : ∀ t x, P t → 0 ≤ x → x ≤ t.balance (.module .reserve) denom →
      P (t.sent (.module .reserve) (.user distribution) ⟨denom, x⟩ .other)) :
    P (s.offers distribution xs) := by
  induction xs generalizing s with
  | nil => exact hs
  | cons x xs ih =>
    obtain ⟨hx, hxs⟩ := List.forall_mem_cons.mp hxs
    refine ih hxs ?_
    unfold offered
    split
    · exact hs
    · rename_i hle
      exact h s x hs hx (not_lt.mp hle)

end ChainState

theorem logged_send (amount : ℤ) (s : ChainState) :
    logged (sendFromModuleToAccount .reserve distribution ⟨denom, amount⟩ .other) s =
      .ok () (s.offered distribution amount) := by
  unfold ChainState.offered
  split
  · rename_i hless
    have herr : sendFromModuleToAccount .reserve distribution ⟨denom, amount⟩ .other s =
        .error (.err .insufficientFunds) s := by
      unfold sendFromModuleToAccount sendCoin
      rw [reading_bind]
      simp [failIf, hless, bind, EStateM.bind]
    exact logged_ok.mpr (.inr ⟨_, herr⟩)
  · rename_i hle
    exact logged_ok.mpr (.inl (sendFromModuleToAccount_ok.mpr ⟨not_lt.mp hle, rfl⟩))

theorem send_ok {amount : ℤ} : Reserve.send distribution amount s = .ok u s' ↔
    0 ≤ amount ∧ s.offered distribution amount = s' := by
  unfold Reserve.send
  constructor
  · intro h
    obtain ⟨coin, t, hcoin, h⟩ := bind_ok.mp h
    obtain ⟨⟨-, h0⟩, rfl, rfl⟩ := newCoin_ok.mp hcoin
    rw [logged_send] at h
    cases h
    exact ⟨h0, rfl⟩
  · rintro ⟨h0, rfl⟩
    exact bind_ok.mpr ⟨_, s, newCoin_ok.mpr ⟨⟨by decide, h0⟩, rfl, rfl⟩, logged_send ..⟩

/-! ## The payout sends what it computes -/

/-- The whole units of a share are not negative. -/
theorem truncateInt_nonneg {v : ℤ} (hv : 0 ≤ v) : 0 ≤ truncateInt v :=
  Int.tdiv_nonneg hv precision_pos.le

/-- **One share**, sent and computed. -/
theorem payValidator_ok (hr : 0 ≤ reward) (ht : 0 < total) {val : StakingValidator} :
    Reserve.payValidator distribution total reward val p.totalRemainder
        (s.offers distribution p.toDistribution) = .ok x s' ↔
      ∃ p', payValidator total reward val p = some p' ∧ p'.totalRemainder = x ∧
        s.offers distribution p'.toDistribution = s' := by
  have hv := truncateInt_nonneg (getSafeShare_le hr (Int.natCast_nonneg val.delegatorShares) ht).1
  unfold Reserve.payValidator payValidator
  simp only
  generalize getSafeShare (val.delegatorShares : ℤ) total reward = v at hv
  by_cases h0 : v = 0
  · rw [if_pos h0, if_pos h0, pure_ok]
    simp
  rw [if_neg h0, if_neg h0, failIf_bind_ok, decide_eq_false_iff_not]
  by_cases hbig : 2 ^ 63 ≤ truncateInt v
  · rw [if_pos hbig]
    refine ⟨fun h => absurd hbig h.1, ?_⟩
    rintro ⟨_, h, -⟩
    cases h
  rw [if_neg hbig]
  constructor
  · rintro ⟨-, h⟩
    obtain ⟨remainder, hsub, h⟩ := ofOption_bind_ok.mp h
    obtain ⟨sum, hadd, h⟩ := ofOption_bind_ok.mp h
    obtain ⟨_, t, hsend, h⟩ := bind_ok.mp h
    obtain ⟨-, rfl⟩ := send_ok.mp hsend
    obtain ⟨rfl, rfl⟩ := pure_ok.mp h
    refine ⟨⟨p.toDistribution ++ [truncateInt v], sum⟩, ?_, rfl, ChainState.offers_append ..⟩
    rw [hsub]
    exact Option.bind_eq_some_iff.mpr ⟨_, rfl, Option.bind_eq_some_iff.mpr ⟨_, hadd, rfl⟩⟩
  · rintro ⟨p', h, rfl, rfl⟩
    obtain ⟨remainder, hsub, h⟩ := Option.bind_eq_some_iff.mp h
    obtain ⟨sum, hadd, h⟩ := Option.bind_eq_some_iff.mp h
    obtain rfl := Option.some.inj h
    refine ⟨hbig, ofOption_bind_ok.mpr ⟨_, hsub, ofOption_bind_ok.mpr ⟨_, hadd, ?_⟩⟩⟩
    exact bind_ok.mpr ⟨(), _, send_ok.mpr ⟨hv, rfl⟩,
      pure_ok.mpr ⟨rfl, (ChainState.offers_append ..).symm⟩⟩

/-- **All shares**, sent and computed. -/
theorem payVotes_ok (hr : 0 ≤ reward) (ht : 0 < total) :
    Reserve.payVotes distribution codec validatorByConsAddr versions total reward votes
        p.totalRemainder (s.offers distribution p.toDistribution) = .ok x s' ↔
      ∃ p', payVotes codec validatorByConsAddr versions total reward votes p = some p' ∧
        p'.totalRemainder = x ∧ s.offers distribution p'.toDistribution = s' := by
  induction votes generalizing p with
  | nil =>
    unfold Reserve.payVotes payVotes
    rw [pure_ok]
    simp
  | cons vote votes ih =>
    unfold Reserve.payVotes payVotes
    by_cases hskip : vote.blockIdFlag.skipped = true
    · rw [if_pos hskip, if_pos hskip]
      exact ih
    rw [if_neg hskip, if_neg hskip]
    cases validatorByConsAddr vote.address with
    | none => exact ih
    | some val =>
      simp only
      rw [ofOption_bind_ok]
      cases codec.valBytes val.operator with
      | none => simp
      | some addr =>
        simp only [Option.some.injEq, exists_eq_left']
        by_cases hbehind : validatorVersion codec val.toValidator versions < versions.getVersion
        · rw [if_pos hbehind, if_pos hbehind]
          exact ih
        rw [if_neg hbehind, if_neg hbehind]
        constructor
        · intro h
          obtain ⟨_, _, hpay, h⟩ := bind_ok.mp h
          obtain ⟨next, hnext, rfl, rfl⟩ := (payValidator_ok hr ht).mp hpay
          obtain ⟨p', hp', hsame⟩ := ih.mp h
          exact ⟨p', Option.bind_eq_some_iff.mpr ⟨next, hnext, hp'⟩, hsame⟩
        · rintro ⟨p', h, hsame⟩
          obtain ⟨next, hnext, hp'⟩ := Option.bind_eq_some_iff.mp h
          exact bind_ok.mpr ⟨_, _, (payValidator_ok hr ht).mpr ⟨next, hnext, rfl, rfl⟩,
            ih.mpr ⟨p', hp', hsame⟩⟩

/-- **The payout**, sent and computed. -/
theorem validatorPayout_ok (hr : 0 ≤ reward) :
    Reserve.validatorPayout distribution codec validatorByConsAddr versions votes reward s =
        .ok u s' ↔
      ∃ m, validatorPayout codec validatorByConsAddr versions votes reward = some m ∧
        s.offers distribution (m.toDistribution ++ [m.toCommunityPool]) = s' := by
  unfold Reserve.validatorPayout validatorPayout
  by_cases h0 : reward = 0
  · rw [if_pos h0, if_pos h0, pure_ok]
    simp [ChainState.offers, ChainState.offered_zero]
  rw [if_neg h0, if_neg h0, ofOption_bind_ok]
  cases hsum : sumTokens validatorByConsAddr votes 0 with
  | none => simp
  | some total =>
    simp only [Option.some.injEq, exists_eq_left', Option.bind_eq_bind, Option.bind_some]
    by_cases hzero : total = 0
    · rw [if_pos hzero, if_pos hzero, pure_ok]
      simp [ChainState.offers, ChainState.offered_zero]
    rw [if_neg hzero, if_neg hzero]
    have ht : 0 < total := by
      have hcounted : 0 ≤ countedShares validatorByConsAddr votes := countedShares_nonneg votes
      have htotal := sumTokens_eq hsum
      omega
    constructor
    · intro h
      obtain ⟨totalRemainder, t, hpay, h⟩ := bind_ok.mp h
      obtain ⟨p', hp', rfl, rfl⟩ := (payVotes_ok (p := {}) (s := s) hr ht).mp hpay
      refine ⟨_, Option.bind_eq_some_iff.mpr ⟨p', hp', rfl⟩, ?_⟩
      rw [ChainState.offers_append]
      split at h
      · rename_i hnone
        obtain ⟨-, rfl⟩ := pure_ok.mp h
        rw [if_pos hnone, ChainState.offered_zero]
      · rename_i hsome
        rw [if_neg hsome]
        exact (send_ok.mp h).2
    · rintro ⟨m, h, rfl⟩
      obtain ⟨p', hp', h⟩ := Option.bind_eq_some_iff.mp h
      obtain rfl := Option.some.inj h
      refine bind_ok.mpr ⟨_, _,
        (payVotes_ok (p := {}) (s := s) hr ht).mpr ⟨p', hp', rfl, rfl⟩, ?_⟩
      rw [ChainState.offers_append]
      obtain ⟨hrem, -⟩ := payVotes_sum hr ht (le_refl 0) hp'
      by_cases hnone : p'.totalRemainder = 0
      · rw [if_pos hnone, if_pos hnone, ChainState.offered_zero]
        exact pure_ok.mpr ⟨rfl, rfl⟩
      · rw [if_neg hnone, if_neg hnone]
        refine send_ok.mpr ⟨?_, rfl⟩
        have hround := (roundInt_bounds hrem).1
        have hprec : precision = 10 ^ 18 := rfl
        rw [hprec] at hround
        omega

/-! ## What is paid is not negative -/

/-- What survives a share survives them all. -/
theorem payVotes_induct {P : Payout → Prop}
    (hstep : ∀ val p p', P p → payValidator total reward val p = some p' → P p') (hp : P p)
    (h : payVotes codec validatorByConsAddr versions total reward votes p = some p') : P p' := by
  induction votes generalizing p with
  | nil =>
    obtain rfl := Option.some.inj h
    exact hp
  | cons vote votes ih =>
    unfold payVotes at h
    split at h
    · exact ih hp h
    · split at h
      · exact ih hp h
      · split at h
        · cases h
        · split at h
          · exact ih hp h
          · obtain ⟨next, hnext, h⟩ := Option.bind_eq_some_iff.mp h
            exact ih (hstep _ _ _ hp hnext) h

theorem payValidator_nonneg (hr : 0 ≤ reward) (ht : 0 < total) {val : StakingValidator}
    (hp : ∀ y ∈ p.toDistribution, 0 ≤ y) (h : payValidator total reward val p = some p') :
    ∀ y ∈ p'.toDistribution, 0 ≤ y := by
  have hv := truncateInt_nonneg (getSafeShare_le hr (Int.natCast_nonneg val.delegatorShares) ht).1
  unfold payValidator at h
  simp only at h
  split at h
  · obtain rfl := Option.some.inj h
    exact hp
  split at h
  · cases h
  obtain ⟨_, -, h⟩ := Option.bind_eq_some_iff.mp h
  obtain ⟨_, -, h⟩ := Option.bind_eq_some_iff.mp h
  obtain rfl := Option.some.inj h
  intro y hy
  rcases List.mem_append.mp hy with hold | hnew
  · exact hp y hold
  · rwa [List.mem_singleton.mp hnew]

theorem validatorPayout_nonneg (hr : 0 ≤ reward)
    (h : validatorPayout codec validatorByConsAddr versions votes reward = some m) :
    ∀ y ∈ m.toDistribution ++ [m.toCommunityPool], 0 ≤ y := by
  unfold validatorPayout at h
  have hnone : ∀ y ∈ (({} : Moved).toDistribution ++ [({} : Moved).toCommunityPool]), 0 ≤ y := by
    simp
  split at h
  · obtain rfl := Option.some.inj h
    exact hnone
  obtain ⟨total, hsum, h⟩ := Option.bind_eq_some_iff.mp h
  split at h
  · obtain rfl := Option.some.inj h
    exact hnone
  rename_i hzero
  have ht : 0 < total := by
    have hcounted : 0 ≤ countedShares validatorByConsAddr votes := countedShares_nonneg votes
    have htotal := sumTokens_eq hsum
    omega
  obtain ⟨p, hpay, h⟩ := Option.bind_eq_some_iff.mp h
  obtain rfl := Option.some.inj h
  have hsent := payVotes_induct (P := fun p => ∀ y ∈ p.toDistribution, 0 ≤ y)
    (fun _ _ _ hp hstep => payValidator_nonneg hr ht hp hstep) (by simp) hpay
  obtain ⟨hrem, -⟩ := payVotes_sum hr ht (le_refl 0) hpay
  intro y hy
  rcases List.mem_append.mp hy with hold | hnew
  · exact hsent y hold
  · rw [List.mem_singleton.mp hnew]
    simp only
    split
    · exact le_rfl
    · have hround := (roundInt_bounds hrem).1
      have hprec : precision = 10 ^ 18 := rfl
      rw [hprec] at hround
      omega

/-! ## The start of a block changes the reserve and the registry -/

/-- What the start of a block leaves as it is. -/
structure BlockFrame (distribution : Bytes) (s s' : ChainState) : Prop where
  contracts : s'.contracts = s.contracts
  expirationSets : s'.expirationSets = s.expirationSets
  userSets : s'.userSets = s.userSets
  nextContractId : s'.nextContractId = s.nextContractId
  providers : s'.providers = s.providers
  events : s'.events = s.events
  bondPostings : s'.bondPostings = s.bondPostings
  nonneg : s.bank.Nonneg → s'.bank.Nonneg
  supply : ∀ d, s'.bank.supply d = s.bank.supply d
  others : ∀ a d, ¬((a = .module .reserve ∨ a = .user distribution) ∧ d = denom) →
    s'.balance a d = s.balance a d
  pair : s'.balance (.module .reserve) denom + s'.balance (.user distribution) denom =
    s.balance (.module .reserve) denom + s.balance (.user distribution) denom
  reserve : s'.balance (.module .reserve) denom ≤ s.balance (.module .reserve) denom

namespace BlockFrame

theorem refl (s : ChainState) : BlockFrame distribution s s :=
  ⟨rfl, rfl, rfl, rfl, rfl, rfl, rfl, id, fun _ => rfl, fun _ _ _ => rfl, rfl, le_rfl⟩

theorem sent (h : BlockFrame distribution s s') (h0 : 0 ≤ x)
    (hle : x ≤ s'.balance (.module .reserve) denom) : BlockFrame distribution s
      (s'.sent (.module .reserve) (.user distribution) ⟨denom, x⟩ .other) where
  contracts := (s'.sent_contracts ..).trans h.contracts
  expirationSets := (s'.sent_expirationSets ..).trans h.expirationSets
  userSets := (s'.sent_userSets ..).trans h.userSets
  nextContractId := (s'.sent_nextContractId ..).trans h.nextContractId
  providers := (s'.sent_providers ..).trans h.providers
  events := (s'.sent_events ..).trans h.events
  bondPostings := (BondFrame.sent (by simp) (by simp) (by simp)).postings.trans h.bondPostings
  nonneg hn := s'.sent_nonneg _ _ _ _ (h.nonneg hn) h0 hle
  supply d := (s'.sent_supply ..).trans (h.supply d)
  others a d hother := by
    rw [ChainState.sent_balance, ← h.others a d hother,
      if_neg fun h => hother ⟨.inl h.1, h.2⟩, if_neg fun h => hother ⟨.inr h.1, h.2⟩]
    omega
  pair := by
    have hold := h.pair
    rw [ChainState.sent_balance, ChainState.sent_balance]
    simp only [reduceCtorEq, false_and, if_false, and_self, if_true]
    omega
  reserve := by
    have hold := h.reserve
    rw [ChainState.sent_balance]
    simp only [reduceCtorEq, false_and, if_false, and_self, if_true]
    omega

theorem offers {xs : List ℤ} (hxs : ∀ x ∈ xs, 0 ≤ x) :
    BlockFrame distribution s (s.offers distribution xs) :=
  ChainState.offers_induct hxs (refl s) fun _ _ h h0 hle => h.sent h0 hle

/-- The registry is no part of it. -/
theorem registry (h : BlockFrame distribution s s') {entries : List Service} :
    BlockFrame distribution s (s'.putServices entries) := { h with }

end BlockFrame

/-- The store after the registry is seeded, if it has to be. -/
def ChainState.ensured (entries : List Service) (seeded : Bool) (s : ChainState) : ChainState :=
  if seeded ∨ s.services.entries ≠ [] then s else s.putServices (entries.filter Service.accepted)

theorem ensureServiceRegistrySeeded_eq (entries : List Service) (seeded : Bool) (s : ChainState) :
    ensureServiceRegistrySeeded entries seeded s = .ok () (s.ensured entries seeded) := by
  unfold ensureServiceRegistrySeeded ChainState.ensured
  cases seeded with
  | true => rfl
  | false =>
    simp only [Bool.false_eq_true, if_false, false_or]
    rw [reading_bind]
    split
    · rfl
    · exact seedServices_eq _

/-! ## The reward -/

/-- **The reward of a block**, a 63115200th of the reserve, rounded. -/
theorem beginBlockReward_ok (params : ParamsStore) (height : Int64) (hr : 0 ≤ r)
    (hfit : r < 2 ^ 256) : ∃ x, params.beginBlockReward height r = some x ∧ 0 ≤ x ∧
      126230400 * x ≤ 2 * r + 63115200 := by
  have hprec : precision = 10 ^ 18 := rfl
  rw [beginBlockReward_eq]
  unfold Params.blockReward calcBlockReward
  have hcurve : ofInt (Int64.ofNat newParams.emissionCurve).toInt = 10 * 10 ^ 18 := by decide
  have hblocks : ofInt (Int64.ofNat newParams.blockPerYear).toInt = 6311520 * 10 ^ 18 := by decide
  have hcycle : ofInt validatorPayoutCycle.toInt = 10 ^ 18 := by decide
  rw [hcurve, hblocks, hcycle, if_neg (by omega)]
  have hevery : ¬((10 : ℤ) ^ 18 = 0 ∨ height % Int64.ofInt (roundInt (10 ^ 18)) ≠ 0) := by
    rw [show Int64.ofInt (roundInt (10 ^ 18)) = 1 by decide]
    simp
  rw [if_neg hevery]
  have hofInt : ofInt r = r * 10 ^ 18 := rfl
  have h0 : 0 ≤ ofInt r := Int.mul_nonneg hr precision_pos.le
  have hfit' : 2 * (ofInt r * precision) + 10 * 10 ^ 18 < 2 ^ (maxDecBitLen + 1) * (10 * 10 ^ 18) := by
    rw [hofInt, hprec, maxDecBitLen]
    omega
  obtain ⟨perCurve, hcurve⟩ := quo_some h0 (by decide) hfit'
  obtain ⟨hc0, hcle, -⟩ := quo_bounds h0 (by decide) hcurve
  rw [hofInt, hprec] at hcle
  obtain ⟨perBlock, hblock⟩ := quo_some (a := perCurve) (b := 6311520 * 10 ^ 18) hc0 (by decide) (by
    rw [hprec, maxDecBitLen]
    omega)
  obtain ⟨hb0, hble, -⟩ := quo_bounds hc0 (by decide) hblock
  obtain ⟨hlo, hhi⟩ := roundInt_bounds hb0
  rw [hprec] at hble hlo hhi
  have h0 : 0 ≤ roundInt perBlock := by omega
  refine ⟨roundInt perBlock, ?_, h0, by omega⟩
  rw [show quo (6311520 * 10 ^ 18) (10 ^ 18) = some (6311520 * 10 ^ 18) by decide +kernel]
  simp only [Option.bind_eq_bind, Option.bind_some]
  rw [hcurve, Option.bind_some, hblock, Option.bind_some, if_neg (not_lt.mpr h0)]

/-! ## The start of a block, inverted and built -/

/-- The sends of a payout, in their order. -/
def Moved.sends (m : Moved) : List ℤ := m.toDistribution ++ [m.toCommunityPool]

theorem Moved.sends_sum (m : Moved) : m.sends.sum = m.total := by
  simp [sends, total]

/-- **The start of a block.** -/
theorem beginBlock_ok (hr : 0 ≤ s.balance (.module .reserve) denom)
    (hfit : s.balance (.module .reserve) denom < 2 ^ 256) :
    beginBlock codec distribution ctx versions params input seeded s = .ok u s' ↔
      ∃ x m, (0 ≤ x ∧ 126230400 * x ≤ 2 * s.balance (.module .reserve) denom + 63115200) ∧
        params.beginBlockReward ctx.blockHeight (s.balance (.module .reserve) denom) = some x ∧
        validatorPayout codec input.validatorByConsAddr versions input.votes (ofInt x) = some m ∧
        (s.offers distribution m.sends).ensured input.entries seeded = s' := by
  obtain ⟨x, hx, h0, hle⟩ := beginBlockReward_ok params ctx.blockHeight hr hfit
  have hx0 : 0 ≤ ofInt x := Int.mul_nonneg h0 precision_pos.le
  unfold beginBlock
  rw [reading_bind, ofOption_bind_ok]
  constructor
  · rintro ⟨y, hy, h⟩
    obtain rfl := Option.some.inj (hx.symm.trans hy)
    obtain ⟨_, t, hpay, h⟩ := bind_ok.mp h
    obtain ⟨m, hm, rfl⟩ := (validatorPayout_ok hx0).mp hpay
    rw [ensureServiceRegistrySeeded_eq] at h
    cases h
    exact ⟨x, m, ⟨h0, hle⟩, hx, hm, rfl⟩
  · rintro ⟨y, m, -, hy, hm, rfl⟩
    obtain rfl := Option.some.inj (hx.symm.trans hy)
    exact ⟨x, hx, bind_ok.mpr ⟨(), _, (validatorPayout_ok hx0).mpr ⟨m, hm, rfl⟩,
      ensureServiceRegistrySeeded_eq ..⟩⟩

theorem BlockFrame.begun (hx : 0 ≤ x)
    (hm : validatorPayout codec validatorByConsAddr versions votes (ofInt x) = some m)
    {entries : List Service} :
    BlockFrame distribution s ((s.offers distribution m.sends).ensured entries seeded) := by
  have hoffers : BlockFrame distribution s (s.offers distribution m.sends) :=
    .offers (validatorPayout_nonneg (Int.mul_nonneg hx precision_pos.le) hm)
  unfold ChainState.ensured
  split
  · exact hoffers
  · exact hoffers.registry

/-! ## What the reserve pays -/

/-- **What has gone to the distribution module**, of what was to be sent. -/
theorem ChainState.offers_sent (s : ChainState) (distribution : Bytes) {xs : List ℤ}
    (hxs : ∀ x ∈ xs, 0 ≤ x) :
    s.balance (.module .reserve) denom - (s.offers distribution xs).balance (.module .reserve) denom
        ≤ xs.sum ∧
      (xs.sum ≤ s.balance (.module .reserve) denom →
        (s.offers distribution xs).balance (.module .reserve) denom =
          s.balance (.module .reserve) denom - xs.sum) := by
  induction xs generalizing s with
  | nil => simp
  | cons x xs ih =>
    obtain ⟨hx, hxs⟩ := List.forall_mem_cons.mp hxs
    have hrest : 0 ≤ xs.sum := List.sum_nonneg hxs
    obtain ⟨hle, hall⟩ := ih (s.offered distribution x) hxs
    have hfirst : (s.offered distribution x).balance (.module .reserve) denom =
        s.balance (.module .reserve) denom -
          if s.balance (.module .reserve) denom < x then 0 else x := by
      unfold offered
      split
      · omega
      · rw [sent_balance]
        simp
    change _ - ((s.offered distribution x).offers distribution xs).balance _ _ ≤ _ ∧
      (_ → ((s.offered distribution x).offers distribution xs).balance _ _ = _)
    rw [List.sum_cons]
    constructor
    · split at hfirst <;> omega
    · intro hcover
      rw [if_neg (by omega)] at hfirst
      rw [hall (by omega)]
      omega

/-! ## A block can be begun -/

theorem countedShares_cons (vote : VoteInfo) (votes : List VoteInfo) :
    countedShares validatorByConsAddr (vote :: votes) =
      ((countedVote validatorByConsAddr vote).elim 0 fun val => (val.delegatorShares : ℤ)) +
        countedShares validatorByConsAddr votes := by
  unfold countedShares
  cases h : countedVote validatorByConsAddr vote with
  | none => rw [List.filterMap_cons_none h, Option.elim_none, zero_add]
  | some val =>
    rw [List.filterMap_cons_some h, List.map_cons, List.sum_cons, Option.elim_some]

/-- A decimal that is not negative and not too large has few enough bits. -/
theorem natAbs_fits {x : ℤ} (h0 : 0 ≤ x) (h : x < 2 ^ maxDecBitLen) : x.natAbs < 2 ^ maxDecBitLen := by
  have hcast : (x.natAbs : ℤ) < 2 ^ maxDecBitLen := by rwa [Int.natAbs_of_nonneg h0]
  exact_mod_cast hcast

theorem sumTokens_some {start : ℤ} (h0 : 0 ≤ start)
    (hfit : start + countedShares validatorByConsAddr votes < 2 ^ maxDecBitLen) :
    ∃ total, sumTokens validatorByConsAddr votes start = some total := by
  induction votes generalizing start with
  | nil => exact ⟨start, rfl⟩
  | cons vote votes ih =>
    have hrest : 0 ≤ countedShares validatorByConsAddr votes := countedShares_nonneg votes
    rw [countedShares_cons, countedVote] at hfit
    unfold sumTokens
    cases hval : validatorByConsAddr vote.address with
    | none =>
      rw [hval, Option.filter_none, Option.elim_none, zero_add] at hfit
      exact ih h0 hfit
    | some val =>
      rw [hval] at hfit
      simp only
      by_cases hskip : (!val.bonded || val.jailed) = true
      · rw [if_pos hskip]
        refine ih h0 ?_
        have hnone : (some val).filter (fun val => val.bonded && !val.jailed) = none := by
          cases hb : val.bonded <;> cases hj : val.jailed <;> simp [Option.filter, hb, hj] at hskip ⊢
        rwa [hnone, Option.elim_none, zero_add] at hfit
      · rw [if_neg hskip]
        have hsome : (some val).filter (fun val => val.bonded && !val.jailed) = some val := by
          cases hb : val.bonded <;> cases hj : val.jailed <;> simp [Option.filter, hb, hj] at hskip ⊢
        rw [hsome, Option.elim_some] at hfit
        have hshares := Int.natCast_nonneg val.delegatorShares
        have hadd : add start val.delegatorShares = some (start + val.delegatorShares) :=
          if_pos (natAbs_fits (by omega) (by omega))
        rw [hadd, Option.bind_some]
        exact ih (by omega) (by omega)

/-- A share of a reward below 63 bits can be paid, and leaves less than one unit. -/
theorem payValidator_some (hr : 0 ≤ reward) (ht : 0 < total) (hsmall : reward < 2 ^ 63 * precision)
    (val : StakingValidator) (hp : 0 ≤ p.totalRemainder)
    (hfit : p.totalRemainder + precision < 2 ^ maxDecBitLen) :
    ∃ p', payValidator total reward val p = some p' ∧ 0 ≤ p'.totalRemainder ∧
      p'.totalRemainder ≤ p.totalRemainder + precision := by
  have hv0 := (getSafeShare_le hr (Int.natCast_nonneg val.delegatorShares) ht).1
  have hvr := getSafeShare_le_allocation hr (Int.natCast_nonneg val.delegatorShares) ht
  have hprec := precision_pos
  unfold payValidator
  simp only
  generalize getSafeShare (val.delegatorShares : ℤ) total reward = v at hv0 hvr ⊢
  by_cases h0 : v = 0
  · exact ⟨p, if_pos h0, hp, by omega⟩
  have htrunc : truncateInt v = v / precision := Int.tdiv_eq_ediv_of_nonneg hv0
  have hunits : truncateInt v < 2 ^ 63 := by
    rw [htrunc]
    exact Int.ediv_lt_of_lt_mul hprec (hvr.trans_lt hsmall)
  have hdm := Int.mul_ediv_add_emod v precision
  have hge := Int.emod_nonneg v hprec.ne'
  have hlt := Int.emod_lt_of_pos v hprec
  have hrest : v - ofInt (truncateInt v) = v % precision := by
    rw [htrunc, ofInt, mul_comm]
    omega
  have hsub : sub v (ofInt (truncateInt v)) = some (v % precision) := by
    unfold sub
    rw [hrest, if_pos (natAbs_fits hge (by omega))]
  have hadd : add p.totalRemainder (v % precision) = some (p.totalRemainder + v % precision) :=
    if_pos (natAbs_fits (by omega) (by omega))
  refine ⟨⟨p.toDistribution ++ [truncateInt v], p.totalRemainder + v % precision⟩, ?_, ?_, ?_⟩
  · rw [if_neg h0, if_neg (not_le.mpr hunits), hsub]
    exact Option.bind_eq_some_iff.mpr ⟨_, rfl, Option.bind_eq_some_iff.mpr ⟨_, hadd, rfl⟩⟩
  · exact Int.add_nonneg hp hge
  · exact Int.add_le_add_left hlt.le _

theorem payVotes_some (hr : 0 ≤ reward) (ht : 0 < total) (hsmall : reward < 2 ^ 63 * precision)
    (hread : ∀ vote ∈ votes, vote.blockIdFlag.skipped = false → ∀ val,
      validatorByConsAddr vote.address = some val → ∃ addr, codec.valBytes val.operator = some addr)
    (hp : 0 ≤ p.totalRemainder)
    (hfit : p.totalRemainder + votes.length * precision < 2 ^ maxDecBitLen) :
    ∃ p', payVotes codec validatorByConsAddr versions total reward votes p = some p' := by
  induction votes generalizing p with
  | nil => exact ⟨p, rfl⟩
  | cons vote votes ih =>
    obtain ⟨hvote, hvotes⟩ := List.forall_mem_cons.mp hread
    have hcast : ((vote :: votes).length : ℤ) * precision = votes.length * precision + precision := by
      rw [List.length_cons]
      push_cast
      ring
    have hrest : (0 : ℤ) ≤ votes.length * precision :=
      Int.mul_nonneg (Int.natCast_nonneg _) precision_pos.le
    have hprec := precision_pos
    rw [hcast] at hfit
    unfold payVotes
    by_cases hskip : vote.blockIdFlag.skipped = true
    · rw [if_pos hskip]
      exact ih hvotes hp (by omega)
    rw [if_neg hskip]
    cases hval : validatorByConsAddr vote.address with
    | none => exact ih hvotes hp (by omega)
    | some val =>
      obtain ⟨addr, haddr⟩ := hvote (by simpa using hskip) val hval
      simp only [haddr]
      by_cases hbehind : validatorVersion codec val.toValidator versions < versions.getVersion
      · rw [if_pos hbehind]
        exact ih hvotes hp (by omega)
      rw [if_neg hbehind]
      obtain ⟨next, hnext, h0, hle⟩ := payValidator_some hr ht hsmall val hp (by omega)
      obtain ⟨p', hp'⟩ := ih hvotes h0 (by omega)
      exact ⟨p', Option.bind_eq_some_iff.mpr ⟨next, hnext, hp'⟩⟩

/-- **The payout does not panic**, for a reward of fewer than 63 bits and validators whose
operators can be read. -/
theorem validatorPayout_some (hr : 0 ≤ reward) (hsmall : reward < 2 ^ 63 * precision)
    (hshares : countedShares validatorByConsAddr votes < 2 ^ maxDecBitLen)
    (hread : ∀ vote ∈ votes, vote.blockIdFlag.skipped = false → ∀ val,
      validatorByConsAddr vote.address = some val → ∃ addr, codec.valBytes val.operator = some addr)
    (hfit : votes.length * precision < 2 ^ maxDecBitLen) :
    ∃ m, validatorPayout codec validatorByConsAddr versions votes reward = some m := by
  unfold validatorPayout
  by_cases h0 : reward = 0
  · exact ⟨{}, if_pos h0⟩
  have hsharesFit : 0 + countedShares validatorByConsAddr votes < 2 ^ maxDecBitLen := by
    rw [zero_add]
    exact hshares
  have hremainderFit : 0 + votes.length * precision < 2 ^ maxDecBitLen := by
    rw [zero_add]
    exact hfit
  obtain ⟨total, hsum⟩ := sumTokens_some (le_refl 0) hsharesFit
  rw [if_neg h0, hsum, Option.bind_eq_bind, Option.bind_some]
  by_cases hzero : total = 0
  · exact ⟨{}, if_pos hzero⟩
  have ht : 0 < total := by
    have hcounted : 0 ≤ countedShares validatorByConsAddr votes := countedShares_nonneg votes
    have htotal := sumTokens_eq hsum
    omega
  obtain ⟨p, hp⟩ := payVotes_some (p := {}) hr ht hsmall hread (le_refl 0) hremainderFit
  rw [if_neg hzero]
  exact ⟨_, Option.bind_eq_some_iff.mpr ⟨p, hp, rfl⟩⟩

end Arkeo
