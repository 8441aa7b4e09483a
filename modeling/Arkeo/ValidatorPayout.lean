import Arkeo.Shares
import Arkeo.VersionConsensus

/-! # The payout to the validators

`ValidatorPayout` goes over the votes of the last block twice.  The first time it adds up the
delegator shares of the validators that are bonded and not jailed; the second time it gives
each vote that has signed its share of the reward by that total, bonded or not.  What is
moved out of the reserve is the sum of the shares, rounded once at the end, and stays within
the reward as long as those that are paid hold no more than the total
(`validatorPayout_within_reward`).
-/
namespace Arkeo
open LegacyDec

/-! ## The code -/

/-- The flag of a vote of the last commit. -/
inductive BlockIdFlag where
  | unknown
  | absent
  | commit
  | nil
  deriving DecidableEq, Repr

def BlockIdFlag.skipped : BlockIdFlag → Bool
  | .absent | .unknown => true
  | .commit | .nil => false

structure VoteInfo where
  address : Bytes
  blockIdFlag : BlockIdFlag
  deriving DecidableEq, Repr

/-- A validator with the shares of its delegators, a decimal that is never negative. -/
structure StakingValidator extends Validator where
  jailed : Bool := false
  delegatorShares : ℕ
  deriving DecidableEq, Repr

/-- What has been sent to the distribution module, and the fractions that were left. -/
structure Payout where
  toDistribution : List ℤ := []
  totalRemainder : ℤ := 0
  deriving DecidableEq, Repr

/-- What leaves the reserve. -/
structure Moved where
  toDistribution : List ℤ := []
  toCommunityPool : ℤ := 0
  deriving DecidableEq, Repr

def Moved.total (m : Moved) : ℤ := m.toDistribution.sum + m.toCommunityPool

variable (codec : AddressCodec) (validatorByConsAddr : Bytes → Option StakingValidator)
  (store : VersionStore)

/-- The loop that sums tokens; `none` where a decimal overflows. -/
def sumTokens : List VoteInfo → ℤ → Option ℤ
  | [], total => some total
  | vote :: votes, total =>
      match validatorByConsAddr vote.address with
      | none => sumTokens votes total
      | some val =>
          if !val.bonded || val.jailed then sumTokens votes total
          else (add total val.delegatorShares).bind (sumTokens votes)

/-- One validator's share; `none` where `Int64()` or a decimal panics. -/
def payValidator (total reward : ℤ) (val : StakingValidator) (p : Payout) : Option Payout :=
  let totalReward := getSafeShare val.delegatorShares total reward
  if totalReward = 0 then some p
  else if 2 ^ 63 ≤ truncateInt totalReward then none
  else do
    let remainder ← sub totalReward (ofInt (truncateInt totalReward))
    let totalRemainder ← add p.totalRemainder remainder
    some { toDistribution := p.toDistribution ++ [truncateInt totalReward]
           totalRemainder := totalRemainder }

/-- The loop that pays; `none` where it panics. -/
def payVotes (total reward : ℤ) : List VoteInfo → Payout → Option Payout
  | [], p => some p
  | vote :: votes, p =>
      if vote.blockIdFlag.skipped then payVotes total reward votes p
      else match validatorByConsAddr vote.address with
        | none => payVotes total reward votes p
        | some val =>
            match codec.valBytes val.operator with
            | none => none
            | some _ =>
                if validatorVersion codec val.toValidator store < store.getVersion then
                  payVotes total reward votes p
                else (payValidator total reward val p).bind (payVotes total reward votes)

/-- `ValidatorPayout`, for sends that succeed. -/
def validatorPayout (votes : List VoteInfo) (reward : ℤ) : Option Moved :=
  if reward = 0 then some {}
  else do
    let total ← sumTokens validatorByConsAddr votes 0
    if total = 0 then some {}
    else do
      let p ← payVotes codec validatorByConsAddr store total reward votes {}
      some { toDistribution := p.toDistribution
             toCommunityPool := if p.totalRemainder = 0 then 0 else roundInt p.totalRemainder }

/-! ## Who is counted, and who is paid -/

/-- The validator of a vote that the first loop counts. -/
def countedVote (vote : VoteInfo) : Option StakingValidator :=
  (validatorByConsAddr vote.address).filter fun val => val.bonded && !val.jailed

/-- The validator of a vote that the second loop gives a share. -/
def paidVote (vote : VoteInfo) : Option StakingValidator :=
  if vote.blockIdFlag.skipped then none
  else (validatorByConsAddr vote.address).filter fun val =>
    !decide (validatorVersion codec val.toValidator store < store.getVersion)

/-- The shares that are counted. -/
def countedShares (votes : List VoteInfo) : ℤ :=
  ((votes.filterMap (countedVote validatorByConsAddr)).map fun val => (val.delegatorShares : ℤ)).sum

/-- The shares that are paid for, each cut down to what is counted. -/
def paidShares (votes : List VoteInfo) : ℤ :=
  ((votes.filterMap (paidVote codec validatorByConsAddr store)).map fun val =>
    min (val.delegatorShares : ℤ) (countedShares validatorByConsAddr votes)).sum

/-- The number of votes that are paid. -/
def paidCount (votes : List VoteInfo) : ℤ :=
  (votes.filterMap (paidVote codec validatorByConsAddr store)).length

variable {codec validatorByConsAddr store} {votes : List VoteInfo} {reward total : ℤ} {p p' : Payout}
  {m : Moved}

theorem sumTokens_eq {start : ℤ} (h : sumTokens validatorByConsAddr votes start = some total) :
    total = start + countedShares validatorByConsAddr votes := by
  induction votes generalizing start with
  | nil => exact (Option.some.inj h).symm.trans (add_zero start).symm
  | cons vote votes ih =>
    unfold sumTokens at h
    unfold countedShares at ih ⊢
    cases hval : validatorByConsAddr vote.address with
    | none =>
      have hvote : countedVote validatorByConsAddr vote = none := by
        rw [countedVote, hval, Option.filter_none]
      rw [hval] at h
      rw [List.filterMap_cons_none hvote]
      exact ih h
    | some val =>
      rw [hval] at h
      simp only at h
      by_cases hskip : (!val.bonded || val.jailed) = true
      · have hvote : countedVote validatorByConsAddr vote = none := by
          rw [countedVote, hval, Option.filter_eq_none_iff]
          rintro a ⟨⟩
          cases hb : val.bonded <;> cases hj : val.jailed <;> simp [hb, hj] at hskip ⊢
        rw [if_pos hskip] at h
        rw [List.filterMap_cons_none hvote]
        exact ih h
      · have hvote : countedVote validatorByConsAddr vote = some val := by
          rw [countedVote, hval, Option.filter_eq_some_iff]
          exact ⟨rfl, by simpa using hskip⟩
        rw [if_neg hskip] at h
        obtain ⟨next, hadd, h⟩ := Option.bind_eq_some_iff.mp h
        rw [List.filterMap_cons_some hvote, List.map_cons, List.sum_cons, ih h, add_some hadd]
        omega

/-- **One share.**  Its whole units are sent, and its fraction is added to the rest. -/
theorem payValidator_sum {val : StakingValidator} (hr : 0 ≤ reward) (ht : 0 < total)
    (hp : 0 ≤ p.totalRemainder) (h : payValidator total reward val p = some p') :
    0 ≤ p'.totalRemainder ∧
      p'.toDistribution.sum * precision + p'.totalRemainder =
        p.toDistribution.sum * precision + p.totalRemainder +
          getSafeShare val.delegatorShares total reward := by
  obtain ⟨hv0, -⟩ := getSafeShare_le hr (Int.natCast_nonneg val.delegatorShares) ht
  unfold payValidator at h
  simp only at h
  generalize getSafeShare (val.delegatorShares : ℤ) total reward = v at hv0 h ⊢
  split at h
  · rename_i h0
    obtain rfl := Option.some.inj h
    rw [h0]
    exact ⟨hp, (add_zero _).symm⟩
  · split at h
    · cases h
    · obtain ⟨remainder, hsub, h⟩ := Option.bind_eq_some_iff.mp h
      obtain ⟨sum, hadd, h⟩ := Option.bind_eq_some_iff.mp h
      obtain rfl := Option.some.inj h
      rw [add_some hadd, sub_some hsub]
      have hdm := Int.mul_ediv_add_emod v precision
      have hmod := Int.emod_nonneg v precision_pos.ne'
      have htrunc : truncateInt v = v / precision := Int.tdiv_eq_ediv_of_nonneg hv0
      simp only [List.sum_append, List.sum_singleton, htrunc, ofInt]
      constructor <;> linarith

/-- **All shares.** -/
theorem payVotes_sum (hr : 0 ≤ reward) (ht : 0 < total) (hp : 0 ≤ p.totalRemainder)
    (h : payVotes codec validatorByConsAddr store total reward votes p = some p') :
    0 ≤ p'.totalRemainder ∧
      p'.toDistribution.sum * precision + p'.totalRemainder =
        p.toDistribution.sum * precision + p.totalRemainder +
          ((votes.filterMap (paidVote codec validatorByConsAddr store)).map fun val =>
            getSafeShare val.delegatorShares total reward).sum := by
  induction votes generalizing p with
  | nil =>
    obtain rfl := Option.some.inj h
    exact ⟨hp, (add_zero _).symm⟩
  | cons vote votes ih =>
    unfold payVotes at h
    by_cases hskip : vote.blockIdFlag.skipped = true
    · have hvote : paidVote codec validatorByConsAddr store vote = none := if_pos hskip
      rw [if_pos hskip] at h
      rw [List.filterMap_cons_none hvote]
      exact ih hp h
    · rw [if_neg hskip] at h
      cases hval : validatorByConsAddr vote.address with
      | none =>
        have hvote : paidVote codec validatorByConsAddr store vote = none := by
          rw [paidVote, if_neg hskip, hval, Option.filter_none]
        rw [hval] at h
        rw [List.filterMap_cons_none hvote]
        exact ih hp h
      | some val =>
        rw [hval] at h
        simp only at h
        cases hbytes : codec.valBytes val.operator with
        | none =>
          rw [hbytes] at h
          cases h
        | some addr =>
          rw [hbytes] at h
          simp only at h
          by_cases hbehind : validatorVersion codec val.toValidator store < store.getVersion
          · have hvote : paidVote codec validatorByConsAddr store vote = none := by
              rw [paidVote, if_neg hskip, hval, Option.filter_eq_none_iff]
              rintro a ⟨⟩
              simpa using hbehind
            rw [if_pos hbehind] at h
            rw [List.filterMap_cons_none hvote]
            exact ih hp h
          · have hvote : paidVote codec validatorByConsAddr store vote = some val := by
              rw [paidVote, if_neg hskip, hval, Option.filter_eq_some_iff]
              exact ⟨rfl, by simpa using hbehind⟩
            rw [if_neg hbehind] at h
            obtain ⟨next, hpay, h⟩ := Option.bind_eq_some_iff.mp h
            obtain ⟨hnext, hsum⟩ := payValidator_sum hr ht hp hpay
            obtain ⟨hrest, hsum'⟩ := ih hnext h
            rw [List.filterMap_cons_some hvote, List.map_cons, List.sum_cons]
            exact ⟨hrest, by omega⟩

/-! ## The bounds -/

/-- The shares of a list of validators, added up. -/
theorem sum_getSafeShare (hr : 0 ≤ reward) (ht : 0 < total) (vals : List StakingValidator) :
    2 * ((vals.map fun val => getSafeShare val.delegatorShares total reward).sum * total * precision) ≤
      2 * (reward * (vals.map fun val => min (val.delegatorShares : ℤ) total).sum * (precision + 1)) +
        vals.length * (total * precision) := by
  induction vals with
  | nil => simp
  | cons val vals ih =>
    obtain ⟨-, hle⟩ := getSafeShare_le hr (Int.natCast_nonneg val.delegatorShares) ht
    simp only [List.map_cons, List.sum_cons, List.length_cons]
    push_cast
    linarith

theorem le_sum_getSafeShare (hr : 0 ≤ reward) (ht : 0 < total) (hrfit : reward < 2 ^ 250)
    (htfit : total < 2 ^ 250) (vals : List StakingValidator) :
    2 * (reward * (vals.map fun val => min (val.delegatorShares : ℤ) total).sum * (precision - 1)) ≤
      2 * ((vals.map fun val => getSafeShare val.delegatorShares total reward).sum * total *
        precision) + vals.length * (total * (precision + 2)) := by
  induction vals with
  | nil => simp
  | cons val vals ih =>
    have hle := le_getSafeShare hr (Int.natCast_nonneg val.delegatorShares) ht hrfit htfit
    simp only [List.map_cons, List.sum_cons, List.length_cons]
    push_cast
    linarith

theorem countedShares_nonneg (votes : List VoteInfo) : 0 ≤ countedShares validatorByConsAddr votes := by
  refine List.sum_nonneg ?_
  intro x hx
  obtain ⟨val, -, rfl⟩ := List.mem_map.mp hx
  exact Int.natCast_nonneg _

/-- **What is moved**: nothing, or the shares of those that are paid, rounded once. -/
theorem validatorPayout_total (hr : 0 ≤ reward)
    (h : validatorPayout codec validatorByConsAddr store votes reward = some m) :
    (reward = 0 ∨ countedShares validatorByConsAddr votes = 0) ∧ m.total = 0 ∨
      reward ≠ 0 ∧ 0 < countedShares validatorByConsAddr votes ∧
        ∃ shares : ℤ, shares = ((votes.filterMap (paidVote codec validatorByConsAddr store)).map
          fun val => getSafeShare val.delegatorShares (countedShares validatorByConsAddr votes)
            reward).sum ∧
        2 * shares - precision ≤ 2 * (precision * m.total) ∧
          2 * (precision * m.total) ≤ 2 * shares + precision := by
  unfold validatorPayout at h
  split at h
  · rename_i h0
    obtain rfl := Option.some.inj h
    exact .inl ⟨.inl h0, rfl⟩
  · rename_i hreward
    obtain ⟨total, hsum, h⟩ := Option.bind_eq_some_iff.mp h
    obtain rfl : total = countedShares validatorByConsAddr votes := by
      rw [sumTokens_eq hsum, zero_add]
    split at h
    · rename_i h0
      obtain rfl := Option.some.inj h
      exact .inl ⟨.inr h0, rfl⟩
    · rename_i hne
      have ht := lt_of_le_of_ne (countedShares_nonneg votes) (Ne.symm hne)
      obtain ⟨p, hpay, h⟩ := Option.bind_eq_some_iff.mp h
      obtain rfl := Option.some.inj h
      obtain ⟨hrem, hshares⟩ := payVotes_sum hr ht (le_refl 0) hpay
      refine .inr ⟨hreward, ht, _, rfl, ?_⟩
      -- the fractions are rounded as a whole
      have hround : 2 * p.totalRemainder - precision ≤
          2 * (precision * if p.totalRemainder = 0 then 0 else roundInt p.totalRemainder) ∧
          2 * (precision * if p.totalRemainder = 0 then 0 else roundInt p.totalRemainder) ≤
            2 * p.totalRemainder + precision := by
        by_cases h0 : p.totalRemainder = 0
        · rw [if_pos h0, h0]
          have := precision_pos
          constructor <;> omega
        · rw [if_neg h0]
          exact roundInt_bounds hrem
      simp only [List.sum_nil, zero_mul, add_zero, zero_add] at hshares
      rw [← hshares, Moved.total]
      constructor <;> linarith [hround.1, hround.2]

/-- **The condition.**  The shares of those that are paid, for the reward, exceed the total for
the reward by less than half a total, with the roundings on the safe side. -/
def Covered (codec : AddressCodec) (validatorByConsAddr : Bytes → Option StakingValidator)
    (store : VersionStore) (votes : List VoteInfo) (reward : ℤ) : Prop :=
  2 * (reward * paidShares codec validatorByConsAddr store votes) * (precision + 1) +
      paidCount codec validatorByConsAddr store votes * countedShares validatorByConsAddr votes <
    countedShares validatorByConsAddr votes * precision * (2 * reward + 1)

/-- The same with the roundings on the other side. -/
def NearlyCovered (codec : AddressCodec) (validatorByConsAddr : Bytes → Option StakingValidator)
    (store : VersionStore) (votes : List VoteInfo) (reward : ℤ) : Prop :=
  2 * (reward * paidShares codec validatorByConsAddr store votes) * (precision - 1) * precision ≤
    countedShares validatorByConsAddr votes * precision ^ 2 * (2 * reward + 1) +
      paidCount codec validatorByConsAddr store votes *
        (countedShares validatorByConsAddr votes * (precision + 2))

theorem Moved.le_of_covered {reward : ℤ} (hr : 0 ≤ reward)
    (h : validatorPayout codec validatorByConsAddr store votes (ofInt reward) = some m)
    (hcovered : countedShares validatorByConsAddr votes = 0 ∨ reward = 0 ∨
      Covered codec validatorByConsAddr store votes reward) : m.total ≤ reward := by
  have hr' : 0 ≤ ofInt reward := Int.mul_nonneg hr precision_pos.le
  rcases validatorPayout_total hr' h with ⟨-, h0⟩ | ⟨hne, ht, shares, hshares, -, hupper⟩
  · rw [h0]
    exact hr
  · have hsum := sum_getSafeShare hr' ht (votes.filterMap (paidVote codec validatorByConsAddr store))
    rw [← hshares] at hsum
    rcases hcovered with h0 | rfl | hcovered
    · omega
    · exact absurd rfl hne
    · unfold Covered paidShares paidCount at hcovered
      have hprec : precision = 10 ^ 18 := rfl
      rw [ofInt, hprec] at hsum
      rw [hprec] at hcovered hupper
      -- the shares, times the total, stay below the reward and a half
      have hlt : 2 * shares * countedShares validatorByConsAddr votes <
          10 ^ 18 * (2 * reward + 1) * countedShares validatorByConsAddr votes := by
        linarith
      have := Int.lt_of_mul_lt_mul_right hlt ht.le
      omega

theorem Moved.nearlyCovered_of_le {reward : ℤ} (hr : 0 ≤ reward) (hrfit : reward < 2 ^ 190)
    (htfit : countedShares validatorByConsAddr votes < 2 ^ 250)
    (h : validatorPayout codec validatorByConsAddr store votes (ofInt reward) = some m)
    (hle : m.total ≤ reward) : countedShares validatorByConsAddr votes = 0 ∨ reward = 0 ∨
      NearlyCovered codec validatorByConsAddr store votes reward := by
  have hprec : precision = 10 ^ 18 := rfl
  have hr' : 0 ≤ ofInt reward := Int.mul_nonneg hr precision_pos.le
  rcases validatorPayout_total hr' h with ⟨h0 | h0, -⟩ | ⟨-, ht, shares, hshares, hlower, -⟩
  · rw [ofInt, hprec] at h0
    exact .inr (.inl (by omega))
  · exact .inl h0
  · right
    right
    have hfit : ofInt reward < 2 ^ 250 := by
      rw [ofInt, hprec]
      omega
    have hsum := le_sum_getSafeShare hr' ht hfit htfit
      (votes.filterMap (paidVote codec validatorByConsAddr store))
    rw [← hshares] at hsum
    unfold NearlyCovered paidShares paidCount
    rw [ofInt, hprec] at hsum
    rw [hprec] at hlower ⊢
    have hshares : 2 * shares ≤ 10 ^ 18 * (2 * reward + 1) := by omega
    have := Int.mul_le_mul_of_nonneg_right hshares ht.le
    linarith

/-- Whoever is paid is bonded and not jailed, and so counted. -/
theorem paid_le_countedShares (hcounted : ∀ vote ∈ votes, ∀ val,
      paidVote codec validatorByConsAddr store vote = some val →
        countedVote validatorByConsAddr vote = some val) (total : ℤ) :
    ((votes.filterMap (paidVote codec validatorByConsAddr store)).map
      fun val => min (val.delegatorShares : ℤ) total).sum ≤ countedShares validatorByConsAddr votes := by
  induction votes with
  | nil => exact le_refl 0
  | cons vote votes ih =>
    obtain ⟨hvote, hvotes⟩ := List.forall_mem_cons.mp hcounted
    have ih := ih hvotes
    have hrest : 0 ≤ countedShares validatorByConsAddr votes := countedShares_nonneg votes
    unfold countedShares at ih hrest ⊢
    cases hpaid : paidVote codec validatorByConsAddr store vote with
    | some val =>
      rw [List.filterMap_cons_some hpaid, List.filterMap_cons_some (hvote val hpaid)]
      simp only [List.map_cons, List.sum_cons]
      have := min_le_left (val.delegatorShares : ℤ) total
      omega
    | none =>
      rw [List.filterMap_cons_none hpaid]
      cases hc : countedVote validatorByConsAddr vote with
      | none =>
        rw [List.filterMap_cons_none hc]
        exact ih
      | some val =>
        rw [List.filterMap_cons_some hc]
        simp only [List.map_cons, List.sum_cons]
        omega

/-- **Counted is covered**, while the reward is small against the digits of a decimal. -/
theorem covered_of_counted {reward : ℤ} (hr : 0 ≤ reward)
    (hcounted : ∀ vote ∈ votes, ∀ val, paidVote codec validatorByConsAddr store vote = some val →
      countedVote validatorByConsAddr vote = some val)
    (hsmall : 2 * reward + votes.length < precision) :
    countedShares validatorByConsAddr votes = 0 ∨
      Covered codec validatorByConsAddr store votes reward := by
  have hpaid := paid_le_countedShares hcounted (countedShares validatorByConsAddr votes)
  have hcount : paidCount codec validatorByConsAddr store votes ≤ votes.length := by
    unfold paidCount
    exact_mod_cast List.length_filterMap_le _ votes
  have htotal : 0 ≤ countedShares validatorByConsAddr votes := countedShares_nonneg votes
  rcases htotal.eq_or_lt with h0 | ht
  · exact .inl h0.symm
  · right
    unfold Covered paidShares
    generalize countedShares validatorByConsAddr votes = total at *
    have hshares := Int.mul_le_mul_of_nonneg_left hpaid hr
    have hvotes := Int.mul_le_mul_of_nonneg_right hcount ht.le
    have hroom := Int.mul_lt_mul_of_pos_right hsmall ht
    have hprec : precision = 10 ^ 18 := rfl
    rw [hprec] at hroom ⊢
    linarith

/-- **The payout stays within the reward exactly as long as those that are paid are covered**,
up to the last digits: the condition is enough, and what is necessary differs from it in the
roundings alone. -/
theorem validatorPayout_within_reward {reward : ℤ} (hr : 0 ≤ reward)
    (h : validatorPayout codec validatorByConsAddr store votes (ofInt reward) = some m) :
    (countedShares validatorByConsAddr votes = 0 ∨ reward = 0 ∨
        Covered codec validatorByConsAddr store votes reward → m.total ≤ reward) ∧
      (reward < 2 ^ 190 → countedShares validatorByConsAddr votes < 2 ^ 250 → m.total ≤ reward →
        countedShares validatorByConsAddr votes = 0 ∨ reward = 0 ∨
          NearlyCovered codec validatorByConsAddr store votes reward) :=
  ⟨Moved.le_of_covered hr h, fun hrfit htfit => Moved.nearlyCovered_of_le hr hrfit htfit h⟩

namespace Sample

/-- A bonded validator and one that is unbonding, with a share each, and both have signed. -/
def byConsAddr : Bytes → Option StakingValidator
  | [1] => some { first with delegatorShares := 10 ^ 18 }
  | [2] => some { second with bonded := false, delegatorShares := 10 ^ 18 }
  | _ => none

def bothSigned : List VoteInfo := [⟨[1], .commit⟩, ⟨[2], .commit⟩]

def oneSigned : List VoteInfo := [⟨[1], .commit⟩, ⟨[2], .absent⟩]

end Sample

/-- The unbonding validator has not signed, and the reward is paid once. -/
theorem one_signed_within_reward : ∃ m,
    validatorPayout Sample.pairCodec Sample.byConsAddr ∅ Sample.oneSigned (ofInt 100) =
      some m ∧ m.total ≤ 100 :=
  ⟨{ toDistribution := [100], toCommunityPool := 0 }, by decide +kernel,
    (validatorPayout_within_reward (by decide) (by decide +kernel :
      validatorPayout Sample.pairCodec Sample.byConsAddr ∅ Sample.oneSigned (ofInt 100) =
        some { toDistribution := [100], toCommunityPool := 0 })).1
      (.inr (.inr (by unfold Covered; decide +kernel)))⟩

/-- **A reward paid twice.**  The total has one share in it, and two are paid. -/
theorem reward_paid_twice : (Sample.bothSigned.map VoteInfo.address).Nodup ∧ ∃ m,
    validatorPayout Sample.pairCodec Sample.byConsAddr ∅ Sample.bothSigned (ofInt 100) =
      some m ∧ m.toDistribution = [100, 100] ∧ m.total = 200 ∧ ¬m.total ≤ 100 :=
  ⟨by decide, { toDistribution := [100, 100], toCommunityPool := 0 }, by decide +kernel, rfl,
    by decide, by decide⟩

end Arkeo
