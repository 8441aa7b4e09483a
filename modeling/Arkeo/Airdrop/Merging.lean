import Arkeo.Airdrop.Payout

/-! # Merging claim records

`ClaimEth` and `TransferClaim` wipe out one record, merge it into another and pay the claim
amount.  Two coins of different denominations do not add up but panic, and an amount that was
claimed has the empty denomination: a record of which an action was claimed cannot be given
to one of which it was not.  The other way round it can, since a coin that is not valid is
replaced (`Coin.Adds`).  So the order of the claims decides whether two records merge
(`merging_iff`).
-/
namespace Arkeo.Airdrop
open Exec Text

variable {env : Env} {ctx : Context} {s s' s₀ : Store} {w : World} {r q m : ClaimRecord}
  {a : Action} {c d e : Coin}

/-! ## Two coins -/

/-- Two coins add up when they are merged: a valid coin takes one of its denomination, and any
other is worth nothing. -/
def Coin.Adds (c d : Coin) : Prop :=
  if c.isValid then c.denom = d.denom ∧ (c.value + d.value).natAbs < 2 ^ 256 else c.value = 0

instance (c d : Coin) : Decidable (c.Adds d) := by
  unfold Coin.Adds
  infer_instance

theorem Coin.Adds.nonneg (h : c.Adds d) : 0 ≤ c.value := by
  unfold Adds at h
  split at h
  · rename_i hv
    exact Coin.value_nonneg hv
  · exact h.ge

/-- The sum of two coins that were stored. -/
theorem mergeAmounts_eq (hc : c.stored = c) (hd : d.stored = d) (h : c.Adds d) :
    mergeAmounts c d = some ⟨d.denom, some (c.value + d.value)⟩ := by
  have hc : c = ⟨c.denom, some c.value⟩ := hc.symm
  have hd : d = ⟨d.denom, some d.value⟩ := hd.symm
  unfold mergeAmounts
  unfold Coin.Adds at h
  cases hv : c.isValid with
  | true =>
    rw [hv, if_pos rfl] at h
    rw [Coin.isNil_of_isValid hv, Bool.not_true, Bool.or_false, if_neg Bool.false_ne_true, Coin.add,
      if_neg (not_not.mpr h.1), ← h.1]
    conv_lhs => rw [hc, hd]
    exact if_pos h.2
  | false =>
    rw [hv, if_neg Bool.false_ne_true] at h
    rw [Bool.not_false, Bool.or_true, if_pos rfl, h, zero_add, ← hd]

theorem Coin.Adds.of_mergeAmounts (h : mergeAmounts c d = some e)
    (hv : e.value = c.value + d.value) : c.Adds d := by
  unfold mergeAmounts at h
  unfold Adds
  cases hvalid : c.isValid with
  | true =>
    rw [hvalid, Coin.isNil_of_isValid hvalid, Bool.not_true, Bool.or_false,
      if_neg Bool.false_ne_true, Coin.add] at h
    rw [if_pos rfl]
    split at h
    · cases h
    rename_i hdenom
    obtain ⟨x, hx, h⟩ := Option.bind_eq_some_iff.mp h
    obtain ⟨y, hy, h⟩ := Option.bind_eq_some_iff.mp h
    rw [Coin.value, hx, Coin.value, hy]
    split at h
    · rename_i hfits
      exact ⟨not_not.mp hdenom, hfits⟩
    · cases h
  | false =>
    rw [hvalid, Bool.not_false, Bool.or_true, if_pos rfl] at h
    cases h
    rw [if_neg Bool.false_ne_true]
    omega

/-! ## Two records -/

/-- Two records merge, and of no action anything is lost. -/
def ClaimRecord.Merges (r q : ClaimRecord) : Prop :=
  ∃ m, mergeClaimRecords r q = .ok m ∧
    ∀ a, (m.amount a).value = (r.amount a).value + (q.amount a).value

/-- The condition for that: the record is empty and nothing of it is left, or it spells its
address the same way and the coins of every action add up. -/
def ClaimRecord.Takes (r q : ClaimRecord) : Prop :=
  if r.isEmpty then ∀ a, (r.amount a).value = 0
  else r.address = q.address ∧ ∀ a, (r.amount a).Adds (q.amount a)

/-- The merged record. -/
theorem ClaimRecord.Takes.merged (hr : r.isEmpty = false → r.stored = r) (hq : q.stored = q)
    (hne : q.isEmpty = false) (hchain : r.isEmpty = false → r.chain = q.chain) (h : r.Takes q) :
    ∃ m, mergeClaimRecords r q = .ok m ∧ m.address = q.address ∧ m.chain = q.chain ∧
      ∀ a, m.amount a = ⟨(q.amount a).denom, some ((r.amount a).value + (q.amount a).value)⟩ := by
  unfold Takes at h
  unfold mergeClaimRecords
  cases he : r.isEmpty with
  | true =>
    rw [he, if_pos rfl] at h
    refine ⟨q, if_pos rfl, rfl, rfl, ?_⟩
    intro a
    rw [h a, zero_add]
    exact (stored_amount hq a).symm
  | false =>
    rw [he, if_neg Bool.false_ne_true] at h
    have hsum : ∀ a, mergeAmounts (r.amount a) (q.amount a) =
        some ⟨(q.amount a).denom, some ((r.amount a).value + (q.amount a).value)⟩ :=
      fun a => mergeAmounts_eq (stored_amount (hr he) a) (stored_amount hq a) (h.2 a)
    rw [if_neg Bool.false_ne_true, hne, if_neg Bool.false_ne_true, if_neg (not_not.mpr h.1),
      if_neg (not_not.mpr (hchain he)), show mergeAmounts r.amountClaim q.amountClaim = _ from hsum .claim,
      show mergeAmounts r.amountDelegate q.amountDelegate = _ from hsum .delegate,
      show mergeAmounts r.amountVote q.amountVote = _ from hsum .vote]
    refine ⟨_, rfl, h.1, hchain he, ?_⟩
    intro a
    cases a <;> rfl

/-- **Records merge without loss** exactly under the condition. -/
theorem ClaimRecord.merges_iff (hr : r.isEmpty = false → r.stored = r) (hq : q.stored = q)
    (hne : q.isEmpty = false) (hchain : r.isEmpty = false → r.chain = q.chain) :
    r.Merges q ↔ r.Takes q := by
  constructor
  · rintro ⟨m, hm, hsum⟩
    unfold Takes
    unfold mergeClaimRecords at hm
    cases he : r.isEmpty with
    | true =>
      rw [he, if_pos rfl] at hm
      cases hm
      rw [if_pos rfl]
      intro a
      have := hsum a
      omega
    | false =>
      rw [he, if_neg Bool.false_ne_true, hne, if_neg Bool.false_ne_true] at hm
      rw [if_neg Bool.false_ne_true]
      split at hm
      · cases hm
      rename_i haddr
      split at hm
      · cases hm
      split at hm
      · rename_i claim delegate vote hc hd hv
        cases hm
        refine ⟨not_not.mp haddr, ?_⟩
        intro a
        cases a with
        | claim => exact .of_mergeAmounts hc (hsum .claim)
        | vote => exact .of_mergeAmounts hv (hsum .vote)
        | delegate => exact .of_mergeAmounts hd (hsum .delegate)
      · cases hm
  · intro h
    obtain ⟨m, hm, -, -, hamount⟩ := h.merged hr hq hne hchain
    exact ⟨m, hm, fun a => by rw [hamount a]; rfl⟩

/-! ## The merged record is written and paid -/

/-- The amounts of a record can be given to another: its address is valid, they merge, and the
sum of the claim amounts can be paid. -/
structure Receives (env : Env) (ctx : Context) (existing q : ClaimRecord) : Prop where
  valid : (env.accAddressFromBech32 q.address).isSome = true
  takes : existing.Takes q
  payable : ctx.Payable env q.address
    ⟨q.amountClaim.denom, some (existing.amountClaim.value + q.amountClaim.value)⟩

/-- The record is merged, written, and its claim amount paid. -/
def Hands (env : Env) (ctx : Context) (s : Store) (existing q : ClaimRecord) : Prop :=
  ∃ m t coin s', mergeClaimRecords existing q = .ok m ∧ setClaimRecord env m s = .ok () t ∧
    claimCoinsForAction env ctx q.address .claim t = .ok coin s'

/-- A merged record has something left. -/
theorem merged_not_isEmpty (hne : q.isEmpty = false) (haddr : m.address = q.address)
    (htakes : r.Takes q)
    (hm : ∀ a, m.amount a = ⟨(q.amount a).denom, some ((r.amount a).value + (q.amount a).value)⟩) :
    m.isEmpty = false := by
  obtain ⟨hq, a, hcounts⟩ := ClaimRecord.isEmpty_eq_false.mp hne
  refine ClaimRecord.isEmpty_eq_false.mpr ⟨haddr ▸ hq, a, ?_⟩
  have hr : 0 ≤ (r.amount a).value := by
    unfold ClaimRecord.Takes at htakes
    split at htakes
    · exact (htakes a).ge
    · exact (htakes.2 a).nonneg
  unfold ClaimRecord.counts at hcounts ⊢
  obtain ⟨hvalid, hv⟩ := Bool.and_eq_true_iff.mp hcounts
  have hpos := Coin.value_nonneg hvalid
  rw [decide_eq_true_eq] at hv
  rw [hm a, Bool.and_eq_true, decide_eq_true_eq]
  refine ⟨Coin.isValid_iff.mpr ⟨(Bool.and_eq_true_iff.mp hvalid).1, by omega⟩, ?_⟩
  change (r.amount a).value + (q.amount a).value ≠ 0
  omega

/-- **Where records are handed over without a failure and without a loss.** -/
theorem receives_iff (henv : env.accAddressFromBech32 "" = none) (hk : s.Kept env)
    (hrun : ctx.Running) (hq : q.stored = q) (hchain : q.chain = .arkeo)
    (hleft : ∃ a, ClaimRecord.counts (q.amount a) = true) {existing : ClaimRecord}
    (hexisting : getClaimRecord q.address .arkeo s = existing)
    (hfund : ctx.worth ⟨q.amountClaim.denom, some (existing.amountClaim.value + q.amountClaim.value)⟩ ≤
      s.bank.bal .module q.amountClaim.denom) :
    Hands env ctx s existing q ∧ existing.Merges q ↔ Receives env ctx existing q := by
  have hkept : existing.isEmpty = false →
      keyOf existing.chain existing.address = keyOf .arkeo q.address ∧
        env.isValidAddress existing.address existing.chain = true ∧ existing.stored = existing := by
    intro he
    rw [← hexisting] at he ⊢
    exact hk.of_not_isEmpty he
  have hchain' : existing.isEmpty = false → existing.chain = q.chain := by
    intro he
    rw [hchain]
    exact congrArg Prod.fst (hkept he).1
  have hvalid_ne : (env.accAddressFromBech32 q.address).isSome = true → q.isEmpty = false := by
    intro hvalid
    refine ClaimRecord.isEmpty_eq_false.mpr ⟨?_, hleft⟩
    intro haddr
    rw [haddr, henv] at hvalid
    cases hvalid
  -- the merged record is paid like any other
  have hpaid : ∀ m, q.isEmpty = false → existing.Takes q → m.address = q.address → m.chain = q.chain →
      (∀ a, m.amount a =
        ⟨(q.amount a).denom, some ((existing.amount a).value + (q.amount a).value)⟩) →
      env.isValidAddress m.address m.chain = true →
      ((∃ coin s', claimCoinsForAction env ctx q.address .claim (s.put m) = .ok coin s') ↔
        ctx.Payable env q.address
          ⟨q.amountClaim.denom, some (existing.amountClaim.value + q.amountClaim.value)⟩) := by
    intro m hne htakes haddr hmchain hm hmv
    have hread : getClaimRecord q.address .arkeo (s.put m) = m.stored := by
      rw [getClaimRecord_put, if_pos (by rw [haddr, hmchain, hchain])]
    have hclaim : m.stored.amount .claim =
        ⟨q.amountClaim.denom, some (existing.amountClaim.value + q.amountClaim.value)⟩ :=
      congrArg Coin.stored (hm .claim)
    have hmne : m.stored.isEmpty = false := by
      refine merged_not_isEmpty hne haddr htakes ?_
      intro a
      have hstored := congrArg Coin.stored (hm a)
      cases a <;> exact hstored
    rw [claimCoinsForAction_succeeds (hk.put hmv) hrun hread hmne (by rw [hclaim]; exact hfund), hclaim]
  constructor
  · rintro ⟨⟨m, t, coin, s', hm, hset, hpay⟩, hmerges⟩
    obtain ⟨hmv, rfl⟩ := setClaimRecord_ok.mp hset
    -- an address that is not valid, the empty one among them, cannot be written
    have hvalid : (env.accAddressFromBech32 q.address).isSome = true := by
      cases he : existing.isEmpty with
      | true =>
        unfold mergeClaimRecords at hm
        rw [he, if_pos rfl] at hm
        cases hm
        rw [hchain] at hmv
        exact hmv
      | false =>
        obtain ⟨hkey, hev, -⟩ := hkept he
        cases hqe : q.isEmpty with
        | true =>
          obtain ⟨m', hm', hsum⟩ := hmerges
          unfold mergeClaimRecords at hm'
          rw [he, if_neg Bool.false_ne_true, if_pos hqe] at hm'
          cases hm'
          obtain ⟨a, ha⟩ := hleft
          have hv := of_decide_eq_true (Bool.and_eq_true_iff.mp ha).2
          have := hsum a
          omega
        | false =>
          have htakes := (ClaimRecord.merges_iff (fun h => (hkept h).2.2) hq hqe hchain').mp hmerges
          unfold ClaimRecord.Takes at htakes
          rw [he, if_neg Bool.false_ne_true] at htakes
          rw [hchain' he, hchain, htakes.1] at hev
          exact hev
    have hne := hvalid_ne hvalid
    have htakes := (ClaimRecord.merges_iff (fun h => (hkept h).2.2) hq hne hchain').mp hmerges
    obtain ⟨m', hm', haddr, hmchain, hamount⟩ := htakes.merged (fun h => (hkept h).2.2) hq hne hchain'
    rw [hm] at hm'
    cases hm'
    exact ⟨hvalid, htakes, (hpaid m hne htakes haddr hmchain hamount hmv).mp ⟨coin, s', hpay⟩⟩
  · rintro ⟨hvalid, htakes, hpayable⟩
    have hne := hvalid_ne hvalid
    obtain ⟨m, hm, haddr, hmchain, hamount⟩ := htakes.merged (fun h => (hkept h).2.2) hq hne hchain'
    have hmv : env.isValidAddress m.address m.chain = true := by
      rw [haddr, hmchain, hchain]
      exact hvalid
    obtain ⟨coin, s', hpay⟩ := (hpaid m hne htakes haddr hmchain hamount hmv).mpr hpayable
    refine ⟨⟨m, _, coin, s', hm, setClaimRecord_ok.mpr ⟨hmv, rfl⟩, hpay⟩, ?_⟩
    exact (ClaimRecord.merges_iff (fun h => (hkept h).2.2) hq hne hchain').mpr htakes

/-! ## The messages -/

/-- The record in which the amounts of another are given to an address. -/
def ClaimRecord.given (r : ClaimRecord) (address : String) : ClaimRecord where
  address := address
  chain := .arkeo
  amountClaim := r.amountClaim
  amountVote := r.amountVote
  amountDelegate := r.amountDelegate

@[simp] theorem ClaimRecord.given_amount (r : ClaimRecord) (address : String) (a : Action) :
    (r.given address).amount a = r.amount a := by
  cases a <;> rfl

theorem ClaimRecord.given_stored (h : r.stored = r) (address : String) :
    (r.given address).stored = r.given address := by
  have hc : r.amountClaim.stored = r.amountClaim := stored_amount h .claim
  have hv : r.amountVote.stored = r.amountVote := stored_amount h .vote
  have hd : r.amountDelegate.stored = r.amountDelegate := stored_amount h .delegate
  unfold given stored
  rw [hc, hv, hd]

/-- What is there once a record has been wiped out. -/
def Store.wiped (s : Store) (r : ClaimRecord) : Store := s.put (r.setAllAmounts {})

theorem Coin.isZero_of_stored (h : c.stored = c) : c.isZero = some (decide (c.value = 0)) := by
  rw [← h]
  rfl

/-- A stored record that is not empty has an amount that is not zero. -/
theorem nothingLeft_eq (hr : r.stored = r) (hne : r.isEmpty = false) :
    nothingLeft r s = .ok false s := by
  have hc : r.amountClaim.isZero = some (decide (r.amountClaim.value = 0)) :=
    Coin.isZero_of_stored (ClaimRecord.stored_amount hr .claim)
  have hv : r.amountVote.isZero = some (decide (r.amountVote.value = 0)) :=
    Coin.isZero_of_stored (ClaimRecord.stored_amount hr .vote)
  have hd : r.amountDelegate.isZero = some (decide (r.amountDelegate.value = 0)) :=
    Coin.isZero_of_stored (ClaimRecord.stored_amount hr .delegate)
  obtain ⟨-, a, ha⟩ := ClaimRecord.isEmpty_eq_false.mp hne
  have ha : (r.amount a).value ≠ 0 := of_decide_eq_true (Bool.and_eq_true_iff.mp ha).2
  unfold nothingLeft
  rw [hne, if_neg Bool.false_ne_true, hc, hv, hd]
  refine ofOption_bind_ok.mpr ⟨_, rfl, ?_⟩
  by_cases hclaim : r.amountClaim.value = 0
  swap
  · rw [decide_eq_false hclaim]
    rfl
  rw [decide_eq_true hclaim, Bool.not_true, if_neg Bool.false_ne_true]
  refine ofOption_bind_ok.mpr ⟨_, rfl, ?_⟩
  by_cases hvote : r.amountVote.value = 0
  swap
  · rw [decide_eq_false hvote]
    rfl
  rw [decide_eq_true hvote, Bool.not_true, if_neg Bool.false_ne_true]
  cases a with
  | claim => exact absurd hclaim ha
  | vote => exact absurd hvote ha
  | delegate => exact ofOption_ok.mpr ⟨congrArg some (decide_eq_false ha), rfl⟩

theorem setClaimRecord_wiped (hv : env.isValidAddress r.address r.chain = true) {u : Unit} :
    setClaimRecord env (r.setAllAmounts {}) s = .ok u s' ↔ s.wiped r = s' := by
  rw [setClaimRecord_ok]
  exact ⟨fun h => h.2, fun h => ⟨hv, h⟩⟩

/-- `TransferClaim` hands the record over, and nothing else can fail. -/
theorem transferClaim_succeeds (hk : s.Kept env) {creator toAddress : String}
    (hr : getClaimRecord creator .arkeo s = r) (hne : r.isEmpty = false)
    (ht : r.isTransferable = true) :
    (∃ u s', transferClaim env ctx creator toAddress s = .ok u s') ↔
      Hands env ctx (s.wiped r) (getClaimRecord toAddress .arkeo (s.wiped r)) (r.given toAddress) := by
  obtain ⟨-, hv, hstored⟩ := hk.of_not_isEmpty (hr ▸ hne)
  rw [hr] at hv hstored
  unfold transferClaim Hands
  constructor
  · rintro ⟨u, s', h⟩
    rw [reading_bind, hr] at h
    obtain ⟨b, t, hleft, h⟩ := bind_ok.mp h
    rw [nothingLeft_eq hstored hne] at hleft
    cases hleft
    obtain ⟨-, h⟩ := failIf_bind_ok.mp h
    obtain ⟨-, h⟩ := failIf_bind_ok.mp h
    obtain ⟨_, t, hwipe, h⟩ := bind_ok.mp h
    obtain rfl := (setClaimRecord_wiped hv).mp hwipe
    rw [reading_bind] at h
    obtain ⟨m, _, hmerge, h⟩ := bind_ok.mp h
    obtain ⟨hm, rfl⟩ := fromExcept_ok.mp hmerge
    obtain ⟨_, t, hset, h⟩ := bind_ok.mp h
    obtain ⟨coin, t', hpay, -⟩ := bind_ok.mp h
    exact ⟨m, t, coin, t', hm, hset, hpay⟩
  · rintro ⟨m, t, coin, t', hm, hset, hpay⟩
    refine ⟨(), t', ?_⟩
    rw [reading_bind, hr]
    refine bind_ok.mpr ⟨false, s, nothingLeft_eq hstored hne, ?_⟩
    refine failIf_bind_ok.mpr ⟨rfl, failIf_bind_ok.mpr ⟨by rw [ht]; rfl, ?_⟩⟩
    refine bind_ok.mpr ⟨(), _, (setClaimRecord_wiped hv).mpr rfl, ?_⟩
    rw [reading_bind]
    refine bind_ok.mpr ⟨m, _, fromExcept_ok.mpr ⟨hm, rfl⟩, bind_ok.mpr ⟨(), t, hset, ?_⟩⟩
    exact bind_ok.mpr ⟨coin, t', hpay, rfl⟩

/-- The amount fits into 64 bits. -/
def Coin.Fits64 (c : Coin) : Prop := -2 ^ 63 ≤ c.value ∧ c.value < 2 ^ 63

instance (c : Coin) : Decidable c.Fits64 := inferInstanceAs (Decidable (_ ∧ _))

theorem Coin.int64_of_stored (h : c.stored = c) : (∃ n, c.int64 = some n) ↔ c.Fits64 := by
  have hc : c.amount = some c.value := (congrArg Coin.amount h).symm
  unfold int64 Fits64
  rw [hc, Option.bind_some]
  split
  · rename_i hfits
    exact ⟨fun _ => hfits, fun _ => ⟨_, rfl⟩⟩
  · rename_i hfits
    refine ⟨?_, fun h => absurd h hfits⟩
    rintro ⟨_, ⟨⟩⟩

theorem Coin.add_of_stored (hd : d.stored = d) {denom : String} {n : ℤ} :
    Coin.add ⟨denom, some n⟩ d = if d.denom = denom ∧ (n + d.value).natAbs < 2 ^ 256 then
      some ⟨denom, some (n + d.value)⟩ else none := by
  have hd : d.amount = some d.value := (congrArg Coin.amount hd).symm
  unfold add
  by_cases hdenom : d.denom = denom
  · rw [if_neg (not_not.mpr hdenom.symm), Option.bind_some, hd, Option.bind_some]
    simp only [hdenom, true_and]
  · rw [if_pos (Ne.symm hdenom), if_neg fun h => hdenom h.1]

/-- The amounts of a record add up to the amount that is signed. -/
structure ClaimRecord.Signable (r : ClaimRecord) : Prop where
  denom : validateDenom r.amountClaim.denom = true
  claim : r.amountClaim.value.natAbs < 2 ^ 256
  delegate : r.amountDelegate.denom = r.amountClaim.denom ∧
    (r.amountClaim.value + r.amountDelegate.value).natAbs < 2 ^ 256
  vote : r.amountVote.denom = r.amountClaim.denom ∧
    (r.amountClaim.value + r.amountDelegate.value + r.amountVote.value).natAbs < 2 ^ 256

theorem getInitialClaimableAmountTotal_some (hr : r.stored = r) :
    (∃ total, getInitialClaimableAmountTotal r = some total) ↔ r.Signable := by
  have hc : r.amountClaim.stored = r.amountClaim := ClaimRecord.stored_amount hr .claim
  have hv : r.amountVote.stored = r.amountVote := ClaimRecord.stored_amount hr .vote
  have hd : r.amountDelegate.stored = r.amountDelegate := ClaimRecord.stored_amount hr .delegate
  unfold getInitialClaimableAmountTotal
  simp only [Option.bind_eq_bind, newCoin_eq, Option.bind_eq_some_iff]
  constructor
  · rintro ⟨total, zero, hzero, t₁, h₁, t₂, h₂, h₃⟩
    split at hzero
    · rename_i hdenom
      cases hzero
      rw [Coin.add_of_stored hc] at h₁
      split at h₁
      · rename_i hc₁
        cases h₁
        rw [Coin.add_of_stored hd] at h₂
        split at h₂
        · rename_i hd₁
          cases h₂
          rw [Coin.add_of_stored hv] at h₃
          split at h₃
          · rename_i hv₁
            rw [zero_add] at hc₁ hd₁ hv₁
            exact ⟨hdenom.1, hc₁.2, hd₁, hv₁⟩
          · cases h₃
        · cases h₂
      · cases h₁
    · cases hzero
  · rintro ⟨hdenom, hclaim, hdelegate, hvote⟩
    refine ⟨⟨r.amountClaim.denom, some (r.amountClaim.value + r.amountDelegate.value +
        r.amountVote.value)⟩, ⟨r.amountClaim.denom, some 0⟩, if_pos ⟨hdenom, le_rfl⟩,
      ⟨r.amountClaim.denom, some r.amountClaim.value⟩, ?_,
      ⟨r.amountClaim.denom, some (r.amountClaim.value + r.amountDelegate.value)⟩, ?_, ?_⟩
    · rw [Coin.add_of_stored hc, zero_add, if_pos ⟨rfl, hclaim⟩]
    · rw [Coin.add_of_stored hd, if_pos hdelegate]
    · rw [Coin.add_of_stored hv, if_pos hvote]

/-- The claim amount of the receiving record fits into the response. -/
theorem claimAmountOf_succeeds (hr : r.isEmpty = false → r.stored = r) :
    (∃ n, claimAmountOf r s = .ok n s) ↔ r.isEmpty = true ∨ r.amountClaim.Fits64 := by
  unfold claimAmountOf
  cases he : r.isEmpty with
  | true =>
    rw [if_pos rfl]
    exact ⟨fun _ => .inl rfl, fun _ => ⟨0, rfl⟩⟩
  | false =>
    have hc : r.amountClaim.stored = r.amountClaim := ClaimRecord.stored_amount (hr he) .claim
    rw [if_neg Bool.false_ne_true, Coin.isZero_of_stored hc, or_iff_right Bool.false_ne_true,
      ← Coin.int64_of_stored hc]
    by_cases hzero : r.amountClaim.value = 0
    · have hfits : r.amountClaim.Fits64 := by
        unfold Coin.Fits64
        omega
      refine ⟨fun _ => (Coin.int64_of_stored hc).mpr hfits, fun _ => ⟨0, ?_⟩⟩
      rw [decide_eq_true hzero]
      rfl
    · rw [decide_eq_false hzero]
      constructor
      · rintro ⟨n, h⟩
        obtain ⟨_, ⟨⟩, h⟩ := ofOption_bind_ok.mp h
        exact ⟨n, (ofOption_ok.mp h).1⟩
      · rintro ⟨n, hn⟩
        exact ⟨n, ofOption_bind_ok.mpr ⟨false, rfl, ofOption_ok.mpr ⟨hn, rfl⟩⟩⟩

/-- `ClaimEth` hands the record over, once its amounts are added up and signed for. -/
theorem claimEth_succeeds (hk : s.Kept env) {creator ethAddress signature : String}
    {existing : ClaimRecord} (hr : getClaimRecord ethAddress .ethereum s = r)
    (hne : r.isEmpty = false) (hexisting : getClaimRecord creator .arkeo (s.wiped r) = existing)
    (hsig : ∀ total, getInitialClaimableAmountTotal r = some total →
      env.isValidClaimSignature ethAddress creator (toString total.value) signature = true) :
    (∃ resp s', claimEth env ctx creator ethAddress signature s = .ok resp s') ↔
      r.Signable ∧ r.amountClaim.Fits64 ∧ (existing.isEmpty = true ∨ existing.amountClaim.Fits64) ∧
        Hands env ctx (s.wiped r) existing (r.given creator) := by
  obtain ⟨-, hv, hstored⟩ := hk.of_not_isEmpty (hr ▸ hne)
  rw [hr] at hv hstored
  have hc : r.amountClaim.stored = r.amountClaim := ClaimRecord.stored_amount hstored .claim
  have hkw : (s.wiped r).Kept env := hk.put hv
  have he : existing.isEmpty = false → existing.stored = existing := by
    intro he
    rw [← hexisting] at he ⊢
    exact (hkw.of_not_isEmpty he).2.2
  rw [← getInitialClaimableAmountTotal_some hstored, ← Coin.int64_of_stored hc,
    ← claimAmountOf_succeeds (s := s.wiped r) he]
  unfold claimEth Hands
  constructor
  · rintro ⟨resp, s', h⟩
    rw [reading_bind, hr] at h
    obtain ⟨b, t, hleft, h⟩ := bind_ok.mp h
    rw [nothingLeft_eq hstored hne] at hleft
    cases hleft
    obtain ⟨-, h⟩ := failIf_bind_ok.mp h
    obtain ⟨total, htotal, h⟩ := ofOption_bind_ok.mp h
    obtain ⟨ethAmount, hamount, h⟩ := ofOption_bind_ok.mp h
    obtain ⟨-, h⟩ := failIf_bind_ok.mp h
    obtain ⟨_, t, hwipe, h⟩ := bind_ok.mp h
    obtain rfl := (setClaimRecord_wiped hv).mp hwipe
    rw [reading_bind, hexisting] at h
    obtain ⟨n, t, hread, h⟩ := bind_ok.mp h
    have ht : t = s.wiped r := by
      have hfinal := readOnly_claimAmountOf existing (s.wiped r)
      rw [hread] at hfinal
      exact hfinal
    subst ht
    obtain ⟨m, _, hmerge, h⟩ := bind_ok.mp h
    obtain ⟨hm, rfl⟩ := fromExcept_ok.mp hmerge
    obtain ⟨_, t, hset, h⟩ := bind_ok.mp h
    obtain ⟨coin, t', hpay, -⟩ := bind_ok.mp h
    exact ⟨⟨total, htotal⟩, ⟨ethAmount, hamount⟩, ⟨n, hread⟩, m, t, coin, t', hm, hset, hpay⟩
  · rintro ⟨⟨total, htotal⟩, ⟨ethAmount, hamount⟩, ⟨n, hread⟩, m, t, coin, t', hm, hset, hpay⟩
    rw [reading_bind, hr]
    refine ⟨⟨ethAddress, creator, ethAmount, n⟩, t', ?_⟩
    refine bind_ok.mpr ⟨false, s, nothingLeft_eq hstored hne, ?_⟩
    refine failIf_bind_ok.mpr ⟨rfl, ofOption_bind_ok.mpr ⟨total, htotal, ?_⟩⟩
    refine ofOption_bind_ok.mpr ⟨ethAmount, hamount, failIf_bind_ok.mpr ⟨?_, ?_⟩⟩
    · rw [hsig total htotal]
      rfl
    refine bind_ok.mpr ⟨(), _, (setClaimRecord_wiped hv).mpr rfl, ?_⟩
    rw [reading_bind, hexisting]
    refine bind_ok.mpr ⟨n, _, hread, bind_ok.mpr ⟨m, _, fromExcept_ok.mpr ⟨hm, rfl⟩, ?_⟩⟩
    exact bind_ok.mpr ⟨(), t, hset, bind_ok.mpr ⟨coin, t', hpay, rfl⟩⟩

/-! ## Every reachable store -/

/-- The module has the coins for the sum of the claim amounts. -/
def Store.Funds (s : Store) (ctx : Context) (existing q : ClaimRecord) : Prop :=
  ctx.worth ⟨q.amountClaim.denom, some (existing.amountClaim.value + q.amountClaim.value)⟩ ≤
    s.bank.bal .module q.amountClaim.denom

/-- The record under a key of another chain is not the one wiped out. -/
theorem getClaimRecord_wiped (hk : s.Kept env) {ethAddress creator : String}
    (hr : getClaimRecord ethAddress .ethereum s = r) (hne : r.isEmpty = false) :
    getClaimRecord creator .arkeo (s.wiped r) = getClaimRecord creator .arkeo s := by
  obtain ⟨hkey, -⟩ := hk.of_not_isEmpty (hr ▸ hne)
  rw [hr] at hkey
  have hchain : r.chain = .ethereum := congrArg Prod.fst hkey
  unfold Store.wiped
  rw [getClaimRecord_put, if_neg]
  intro hsame
  have hsame : Chain.arkeo = r.chain := congrArg Prod.fst hsame
  rw [hchain] at hsame
  cases hsame

/-- **Merging claim records.**  In every store that a run reaches while the airdrop runs, and
with the coins there: a record is transferred without a failure and without a loss exactly if
the other record receives it, and an Ethereum record that is signed for is claimed so exactly
if its amounts and the response can moreover be computed. -/
theorem merging_iff (henv : env.accAddressFromBech32 "" = none) {bank : Ledger Holder String}
    {records : List ClaimRecord} (hgen : initGenesis env bank records = some s₀) {msgs : List Msg}
    (hrun : Runs.run (step env) (genesis s₀ ctx) msgs = some w) (hrunning : w.ctx.Running) :
    (∀ creator toAddress r existing, getClaimRecord creator .arkeo w.store = r →
      r.isEmpty = false → r.isTransferable = true →
      getClaimRecord toAddress .arkeo (w.store.wiped r) = existing →
      w.store.Funds w.ctx existing (r.given toAddress) →
      ((∃ u s', transferClaim env w.ctx creator toAddress w.store = .ok u s') ∧
          existing.Merges (r.given toAddress) ↔
        Receives env w.ctx existing (r.given toAddress))) ∧
    ∀ creator ethAddress signature r existing, getClaimRecord ethAddress .ethereum w.store = r →
      r.isEmpty = false → getClaimRecord creator .arkeo w.store = existing →
      w.store.Funds w.ctx existing (r.given creator) →
      (∀ total, getInitialClaimableAmountTotal r = some total →
        env.isValidClaimSignature ethAddress creator (toString total.value) signature = true) →
      ((∃ resp s', claimEth env w.ctx creator ethAddress signature w.store = .ok resp s') ∧
          existing.Merges (r.given creator) ↔
        Receives env w.ctx existing (r.given creator) ∧ r.Signable ∧ r.amountClaim.Fits64 ∧
          (existing.isEmpty = true ∨ existing.amountClaim.Fits64)) := by
  have hk := reachable_kept hgen hrun
  -- what a record is given to is wiped out, stored, and has something left
  have hgiven : ∀ {chain address r}, getClaimRecord address chain w.store = r → r.isEmpty = false →
      (w.store.wiped r).Kept env ∧ r.stored = r ∧ ∃ a, ClaimRecord.counts (r.amount a) = true := by
    intro chain address r hr hne
    obtain ⟨-, hv, hstored⟩ := hk.of_not_isEmpty (hr ▸ hne)
    rw [hr] at hv hstored
    exact ⟨hk.put hv, hstored, (ClaimRecord.isEmpty_eq_false.mp hne).2⟩
  refine ⟨?_, ?_⟩
  · intro creator toAddress r existing hr hne ht hexisting hfund
    obtain ⟨hkw, hstored, a, hleft⟩ := hgiven hr hne
    rw [transferClaim_succeeds hk hr hne ht, hexisting]
    exact receives_iff henv hkw hrunning (ClaimRecord.given_stored hstored toAddress) rfl
      ⟨a, by rw [ClaimRecord.given_amount]; exact hleft⟩ hexisting hfund
  · intro creator ethAddress signature r existing hr hne hexisting hfund hsig
    obtain ⟨hkw, hstored, a, hleft⟩ := hgiven hr hne
    rw [← getClaimRecord_wiped hk hr hne] at hexisting
    rw [claimEth_succeeds hk hr hne hexisting hsig, ← receives_iff henv hkw hrunning
      (ClaimRecord.given_stored hstored creator) rfl
      ⟨a, by rw [ClaimRecord.given_amount]; exact hleft⟩ hexisting hfund]
    tauto

namespace Sample

def signer : String := "0x7e5f4552091a69125d5dfcb7b8c2659029395bdf"

def signerBytes : Bytes :=
  [126, 95, 69, 82, 9, 26, 105, 18, 93, 93, 252, 183, 184, 194, 101, 144, 41, 57, 91, 223]

def claimHash18 : Bytes :=
  [30, 186, 47, 13, 63, 59, 142, 28, 107, 128, 181, 137, 74, 187, 41, 45, 178, 67, 78, 173, 71, 36,
    247, 129, 144, 42, 236, 52, 40, 141, 137, 74]

def signatureBytes : Bytes :=
  [198, 4, 127, 148, 65, 237, 125, 109, 48, 69, 64, 110, 149, 192, 124, 216, 92, 119, 142, 75, 140,
    239, 60, 167, 171, 172, 9, 185, 92, 112, 158, 229, 13, 160, 168, 175, 63, 107, 122, 59, 50, 29,
    5, 4, 15, 194, 44, 252, 85, 249, 255, 246, 237, 154, 54, 9, 65, 253, 180, 79, 165, 156, 12, 137,
    1]

/-- The signature of the signer for 18 coins that go to the holder. -/
def signature : String := hexEncode signatureBytes

theorem signature_decoded : hexDecodePadded signature = some signatureBytes := by
  have hchars : signature.toList = 'c' :: '6' :: '0' :: (signature.toList.drop 3) := by
    unfold signature hexEncode
    rw [String.toList_ofList]
    decide
  have hstrip : strip0x signature = signature := by
    unfold strip0x
    rw [hchars]
    rfl
  have heven : signature.length % 2 = 0 := by
    rw [← String.length_toList]
    unfold signature hexEncode
    rw [String.toList_ofList]
    decide +kernel
  unfold hexDecodePadded
  simp only [hstrip]
  rw [if_neg (by omega)]
  exact hexDecode_hexEncode signatureBytes

/-- The addresses above, and the one signature. -/
def signedEnv : Env :=
  { Sample.env with
    claimHash := fun eth arkeo amount =>
      if eth = signerBytes ∧ arkeo = holder ∧ amount = "18" then some claimHash18 else none
    recoverAddress := fun hash sig =>
      if hash = claimHash18 ∧ sig = signatureBytes then some signerBytes else none }

theorem signature_valid :
    signedEnv.isValidClaimSignature signer holder "18" signature = true := by
  have hsigner : hexToAddress signer = signerBytes := by decide +kernel
  unfold Env.isValidClaimSignature
  rw [signature_decoded, hsigner]
  decide

/-- The holder's record can be given away. -/
def given : ClaimRecord :=
  { address := holder, amountClaim := coins 10, amountVote := coins 5, amountDelegate := coins 3
    isTransferable := true }

def taking : ClaimRecord :=
  { address := friend, amountClaim := coins 1, amountVote := coins 1, amountDelegate := coins 1 }

def signed : ClaimRecord :=
  { given with chain := .ethereum, address := signer, isTransferable := false }

/-- The world after some messages, from these three records. -/
def after (msgs : List Msg) : Option (Store × World) :=
  (initGenesis signedEnv bank [given, taking, signed]).bind fun s₀ =>
    (Runs.run (step signedEnv) (genesis s₀ Sample.ctx) msgs).map fun w => (s₀, w)

theorem after_eq {msgs : List Msg} {β : Type} (f : World → β) {b : β}
    (h : ((after msgs).map fun p => f p.2) = some b) :
    ∃ s₀ w, initGenesis signedEnv bank [given, taking, signed] = some s₀ ∧
      Runs.run (step signedEnv) (genesis s₀ Sample.ctx) msgs = some w ∧ f w = b := by
  obtain ⟨⟨s₀, w⟩, hafter, hf⟩ := Option.map_eq_some_iff.mp h
  obtain ⟨_, hs, hmap⟩ := Option.bind_eq_some_iff.mp hafter
  obtain ⟨_, hw, ⟨⟩⟩ := Option.map_eq_some_iff.mp hmap
  exact ⟨s₀, w, hs, hw, hf⟩

/-- Before anything is claimed, half-way through the decay, the holder's record goes to the
friend, and the signer's record to the holder. -/
theorem merged_unclaimed : ∃ s₀ w,
    initGenesis signedEnv bank [given, taking, signed] = some s₀ ∧
    Runs.run (step signedEnv) (genesis s₀ Sample.ctx) [.nextBlock 150] = some w ∧
    (∃ u s', transferClaim signedEnv w.ctx holder friend w.store = .ok u s') ∧
    ∃ resp s', claimEth signedEnv w.ctx holder signer signature w.store = .ok resp s' := by
  obtain ⟨s₀, w, hs, hw, hf⟩ := after_eq (fun w => (w.ctx, getClaimRecord holder .arkeo w.store,
      getClaimRecord friend .arkeo (w.store.wiped given), getClaimRecord signer .ethereum w.store,
      w.store.bank.bal .module defaultClaimDenom))
    (show (after [.nextBlock 150]).map _ =
      some ({ Sample.ctx with blockTime := 150 }, given, taking, signed, 1000) by decide +kernel)
  simp only [Prod.mk.injEq] at hf
  obtain ⟨hctx, hgiven, htaking, hsigned, hbal⟩ := hf
  have hrunning : w.ctx.Running := by
    rw [hctx]
    exact ⟨by decide, by decide⟩
  obtain ⟨htransfer, heth⟩ := merging_iff (by decide) hs hw hrunning
  -- the sums of the claim amounts are 11 and 20
  have hpayable : ∀ c : Coin, c = coins 11 ∨ c = coins 20 →
      w.ctx.Computes c ∧ validateDenom c.denom = true ∧ 0 ≤ w.ctx.worth c ∧
        w.ctx.worth c ≤ w.store.bank.bal .module defaultClaimDenom := by
    rw [hctx, hbal]
    rintro c (rfl | rfl)
    · decide +kernel
    · decide +kernel
  obtain ⟨htransfer, heth⟩ := merging_iff (by decide) hs hw hrunning
  refine ⟨s₀, w, hs, hw, ?_, ?_⟩
  · obtain ⟨hcomputes, hdenom, hpos, hfund⟩ := hpayable _ (.inl rfl)
    refine ((htransfer holder friend given taking hgiven (by decide) rfl htaking hfund).mpr ?_).1
    refine ⟨by decide, ?_, .inr ⟨hcomputes, .inr ⟨hdenom, hpos, _, rfl, rfl⟩⟩⟩
    refine (if_neg (by decide)).mpr ⟨rfl, ?_⟩
    intro a
    cases a <;> decide
  · obtain ⟨hcomputes, hdenom, hpos, hfund⟩ := hpayable _ (.inr rfl)
    refine ((heth holder signer signature signed given hsigned (by decide) hgiven hfund ?_).mpr
      ⟨⟨by decide, ?_, .inr ⟨hcomputes, .inr ⟨hdenom, hpos, _, rfl, rfl⟩⟩⟩, ?_, by decide,
        .inr (by decide)⟩).1
    · intro total htotal
      have htotal : total = coins 18 := Option.some.inj (htotal.symm.trans (by decide))
      rw [htotal]
      exact signature_valid
    · refine (if_neg (by decide)).mpr ⟨rfl, ?_⟩
      intro a
      cases a <;> decide
    · exact ⟨by decide, by decide, ⟨rfl, by decide⟩, rfl, by decide⟩

/-- **A vote in between.**  Once the holder has voted, the transfer to the friend panics. -/
theorem not_merged_after_vote : ∃ s₀ w s',
    initGenesis signedEnv bank [given, taking, signed] = some s₀ ∧
    Runs.run (step signedEnv) (genesis s₀ Sample.ctx) [.vote holder] = some w ∧ w.ctx.Running ∧
    (getClaimRecord holder .arkeo w.store).isTransferable = true ∧
    (getClaimRecord holder .arkeo w.store).amountClaim = coins 10 ∧
    w.store.bank.bal .module defaultClaimDenom = 995 ∧
    transferClaim signedEnv w.ctx holder friend w.store = .error .panic s' := by
  obtain ⟨s₀, w, hs, hw, hf⟩ := after_eq (fun w => (w.ctx, getClaimRecord holder .arkeo w.store,
      w.store.bank.bal .module defaultClaimDenom,
      match transferClaim signedEnv w.ctx holder friend w.store with
      | .error .panic _ => true
      | _ => false))
    (show (after [.vote holder]).map _ =
      some (Sample.ctx, { given with amountVote := ⟨"", some 0⟩ }, 995, true) by decide +kernel)
  simp only [Prod.mk.injEq] at hf
  obtain ⟨hctx, hrecord, hbal, hpanic⟩ := hf
  cases hrun : transferClaim signedEnv w.ctx holder friend w.store with
  | ok u s' =>
    rw [hrun] at hpanic
    cases hpanic
  | error e s' =>
    rw [hrun] at hpanic
    cases e with
    | err e => cases hpanic
    | panic =>
      refine ⟨s₀, w, s', hs, hw, ?_, ?_, ?_, hbal, hrun⟩
      · rw [hctx]
        exact ⟨by decide, by decide⟩
      · rw [hrecord]
        rfl
      · rw [hrecord]
        rfl

end Sample

end Arkeo.Airdrop
