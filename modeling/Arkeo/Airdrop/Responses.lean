import Arkeo.Airdrop.Merging

/-! # What the responses of a claim report

The responses of `ClaimArkeo` and `ClaimEth` give the amounts that the records have before the
payment, and the payment is what is claimable of the merged record at the time.  The two agree
where the airdrop has started, its decay takes nothing yet, and the record of the claimer is
merged and not replaced (`responses_iff`).
-/
namespace Arkeo.Airdrop
open Exec Text

variable {env : Env} {ctx ctx₀ : Context} {s s' s₀ : Store} {w : World} {r q m : ClaimRecord}
  {a : Action} {c d : Coin} {account : Bytes}

/-! ## What an account receives -/

/-- An account receives a coin and nothing else. -/
def Store.Receives (s s' : Store) (account : Bytes) (c : Coin) : Prop :=
  ∀ d, s'.bank.bal (.user account) d =
    s.bank.bal (.user account) d + if d = c.denom then c.value else 0

/-- The amount in a response is what the account receives, in some denomination. -/
def Store.Reports (s s' : Store) (account : Bytes) (n : ℤ) : Prop :=
  ∃ denom, s.Receives s' account ⟨denom, some n⟩

theorem Store.Receives.reports_iff (h : s.Receives s' account c) {n : ℤ} :
    s.Reports s' account n ↔ c.value = n := by
  constructor
  · rintro ⟨denom, hn⟩
    have h₁ := (h c.denom).symm.trans (hn c.denom)
    have h₂ := (h denom).symm.trans (hn denom)
    change _ = _ + (if c.denom = denom then n else 0) at h₁
    change _ = _ + (if denom = denom then n else 0) at h₂
    rw [if_pos rfl] at h₁ h₂
    by_cases hd : c.denom = denom
    · rw [if_pos hd] at h₁
      omega
    · rw [if_neg hd] at h₁
      rw [if_neg (Ne.symm hd)] at h₂
      omega
  · rintro rfl
    exact ⟨c.denom, h⟩

/-- **What a claim transfers** to the claimer; it is never a debt. -/
theorem claimCoinsForAction_receives (hk : s.Kept env) {address : String}
    (hr : getClaimRecord address .arkeo s = r) (hne : r.isEmpty = false)
    (haccount : env.accAddressFromBech32 address = some account) {coin : Coin}
    (h : claimCoinsForAction env ctx address a s = .ok coin s') :
    coin.value = ctx.worth (r.amount a) ∧ 0 ≤ coin.value ∧ s.Receives s' account coin := by
  have hclaim := claimCoinsForAction_claimable h
  rw [hr] at hclaim
  refine ⟨claimableAmount_value hne hclaim, ?_⟩
  by_cases hv : coin.value = 0
  · rw [claimCoinsForAction_nothing hr hclaim hv] at h
    cases h
    refine ⟨hv.ge, ?_⟩
    intro d
    rw [hv, ite_self, add_zero]
  · obtain ⟨account', hpays, -, rfl⟩ := (claimCoinsForAction_ok hk hr hclaim hv).mp h
    obtain rfl := Option.some.inj (haccount.symm.trans hpays.account_eq)
    refine ⟨Coin.value_nonneg hpays.valid, ?_⟩
    intro d
    change (s.bank.move .module (.user account) coin.denom coin.value).bal (.user account) d = _
    have hmodule : ¬(Holder.user account = .module ∧ d = coin.denom) := fun h => nomatch h.1
    rw [Ledger.bal_move, if_neg hmodule, sub_zero]
    simp only [true_and]

/-! ## The amount in the response -/

theorem Coin.int64_toInt {n : Int64} (h : c.int64 = some n) : n.toInt = c.value := by
  unfold int64 at h
  obtain ⟨x, hx, h⟩ := Option.bind_eq_some_iff.mp h
  split at h
  · rename_i hfits
    cases h
    rw [Coin.value, hx, Option.getD_some]
    exact Int64.toInt_ofInt_of_le hfits.1 hfits.2
  · cases h

/-- The time leaves an amount whole: the airdrop has started and not ended, and once it decays
the factor is still all of the ten thousand.  A factor above that comes out of durations that
are negative or wrap around; a small amount is cut off to itself by it. -/
def Context.Leaves (ctx : Context) (amount : ℤ) : Prop :=
  ctx.Started ∧ ¬ctx.Ended ∧ (ctx.Decaying → 10000 ≤ ctx.factor ∧
    amount * (ctx.factor - 10000) < 10000)

instance (ctx : Context) (amount : ℤ) : Decidable (ctx.Leaves amount) :=
  inferInstanceAs (Decidable (_ ∧ _))

/-- Ten-thousandths that are not a debt make up the amount again only from the full factor on. -/
theorem tdiv_eq_self_iff {n f : ℤ} (hn : n ≠ 0) (h : 0 ≤ (n * f).tdiv 10000) :
    (n * f).tdiv 10000 = n ↔ 10000 ≤ f ∧ n * (f - 10000) < 10000 := by
  have hsplit : n * (f - 10000) = n * f - n * 10000 := mul_sub ..
  -- the sign of a quotient that is cut off is that of the product
  have hflip : n * f < 0 → (n * f).tdiv 10000 = -((-(n * f)) / 10000) := fun hneg => by
    rw [← Int.tdiv_eq_ediv_of_nonneg (by omega), Int.neg_tdiv, neg_neg]
  rcases lt_or_gt_of_ne hn with hneg | hpos
  · constructor
    · intro heq
      omega
    · rintro ⟨hf, -⟩
      have hle : n * (f - 10000) ≤ 0 := Int.mul_nonpos_of_nonpos_of_nonneg hneg.le (by omega)
      have := hflip (by omega)
      omega
  · constructor
    · intro heq
      have hprod : 0 ≤ n * f := by
        by_contra hlt
        have := hflip (by omega)
        omega
      rw [Int.tdiv_eq_ediv_of_nonneg hprod] at heq
      refine ⟨le_of_mul_le_mul_left (?_ : n * 10000 ≤ n * f) hpos, ?_⟩
      · omega
      · omega
    · rintro ⟨hf, hlt⟩
      have hle : 0 ≤ n * (f - 10000) := Int.mul_nonneg hpos.le (by omega)
      rw [Int.tdiv_eq_ediv_of_nonneg (by omega)]
      omega

/-- **What is paid is the amount** exactly if there is none or the time leaves it whole. -/
theorem Context.worth_eq_value_iff (h : 0 ≤ ctx.worth c) :
    ctx.worth c = c.value ↔ c.value = 0 ∨ ctx.Leaves c.value := by
  by_cases hn : c.value = 0
  · rw [worth_of_value hn]
    exact ⟨fun _ => .inl hn, fun _ => hn.symm⟩
  rw [or_iff_right hn]
  unfold Leaves
  by_cases hs : ctx.Started
  · by_cases hend : ctx.Ended
    · have hzero : ctx.worth c = 0 := by
        unfold worth factor
        rw [if_pos (.inr hend), mul_zero, Int.zero_tdiv]
      rw [hzero]
      exact ⟨fun h => absurd h.symm hn, fun h => absurd hend h.2.1⟩
    · by_cases hdec : ctx.Decaying
      · rw [show (ctx.worth c = c.value ↔ _) from tdiv_eq_self_iff hn h]
        exact ⟨fun h => ⟨hs, hend, fun _ => h⟩, fun h => h.2.2 hdec⟩
      · exact ⟨fun _ => ⟨hs, hend, fun h => absurd h hdec⟩, fun _ => worth_full hs hdec c⟩
  · rw [worth_of_not_started hs]
    exact ⟨fun h => absurd h.symm hn, fun h => absurd h.1 hs⟩

/-- What is held is a debt that makes up for what the time takes off an amount: all of it before
the start and after the end, and while the airdrop decays the ten-thousandths that the factor
leaves out, rounded up to whole coins. -/
def Context.Offsets (ctx : Context) (held amount : ℤ) : Prop :=
  if ctx.Started ∧ ¬ctx.Ended then
    ctx.Decaying ∧ 10000 * held ≤ max (amount * (ctx.factor - 10000)) (-10000 * amount) ∧
      max (amount * (ctx.factor - 10000)) (-10000 * amount) < 10000 * held + 10000
  else held = -amount

theorem tdiv_eq_add_iff {n f m : ℤ} (h : 0 ≤ (n * f).tdiv 10000) :
    (n * f).tdiv 10000 = n + m ↔
      10000 * m ≤ max (n * (f - 10000)) (-10000 * n) ∧
        max (n * (f - 10000)) (-10000 * n) < 10000 * m + 10000 := by
  have hsplit : n * (f - 10000) = n * f - n * 10000 := mul_sub ..
  rcases lt_or_ge (n * f) 0 with hneg | hpos
  · have hflip : (n * f).tdiv 10000 = -((-(n * f)) / 10000) := by
      rw [← Int.tdiv_eq_ediv_of_nonneg (by omega), Int.neg_tdiv, neg_neg]
    omega
  · rw [Int.tdiv_eq_ediv_of_nonneg hpos]
    omega

theorem Context.worth_eq_add_iff {held : ℤ} (h : 0 ≤ ctx.worth c) (hheld : held ≠ 0) :
    ctx.worth c = c.value + held ↔ ctx.Offsets held c.value := by
  unfold Offsets
  by_cases hs : ctx.Started
  · by_cases hend : ctx.Ended
    · have hzero : ctx.worth c = 0 := by
        unfold worth factor
        rw [if_pos (.inr hend), mul_zero, Int.zero_tdiv]
      rw [if_neg fun hopen => hopen.2 hend, hzero]
      omega
    · rw [if_pos ⟨hs, hend⟩]
      by_cases hdec : ctx.Decaying
      · rw [show (ctx.worth c = c.value + held ↔ _) from tdiv_eq_add_iff h]
        exact ⟨fun h => ⟨hdec, h⟩, And.right⟩
      · -- nothing is taken off
        rw [worth_full hs hdec c]
        exact ⟨fun he => absurd (left_eq_add.mp he) hheld, fun he => absurd he.1 hdec⟩
  · rw [if_neg fun hopen => hs hopen.1, worth_of_not_started hs]
    omega

/-! ## ClaimArkeo -/

/-- What `ClaimArkeo` has done when it succeeds. -/
theorem claimArkeo_inv {creator : String} {resp : String × Int64}
    (h : claimArkeo env ctx creator s = .ok resp s') :
    (getClaimRecord creator .arkeo s).isEmpty = false ∧
      (getClaimRecord creator .arkeo s).amountClaim.value ≠ 0 ∧
      (getClaimRecord creator .arkeo s).amountClaim.int64 = some resp.2 ∧
      ∃ coin, claimCoinsForAction env ctx creator .claim s = .ok coin s' := by
  unfold claimArkeo at h
  rw [reading_bind] at h
  obtain ⟨hne, h⟩ := failIf_bind_ok.mp h
  obtain ⟨zero, hzero, hrest⟩ := ofOption_bind_ok.mp h
  obtain ⟨hnonzero, hrest⟩ := failIf_bind_ok.mp hrest
  obtain ⟨coin, t, hclaim, hrest'⟩ := bind_ok.mp hrest
  obtain ⟨amount, hamount, hend⟩ := ofOption_bind_ok.mp hrest'
  obtain ⟨rfl, rfl⟩ := pure_ok.mp hend
  refine ⟨hne, ?_, hamount, coin, hclaim⟩
  obtain ⟨x, hx, rfl⟩ := Option.map_eq_some_iff.mp hzero
  rw [Coin.value, hx, Option.getD_some]
  exact of_decide_eq_false hnonzero

theorem claimArkeo_reports (hk : s.Kept env) {creator : String} {resp : String × Int64}
    (hr : getClaimRecord creator .arkeo s = r)
    (haccount : env.accAddressFromBech32 creator = some account)
    (h : claimArkeo env ctx creator s = .ok resp s') :
    s.Reports s' account resp.2.toInt ↔ ctx.Leaves r.amountClaim.value := by
  obtain ⟨hne, hnonzero, hamount, coin, hclaim⟩ := claimArkeo_inv h
  rw [hr] at hne hnonzero hamount
  obtain ⟨hvalue, hpos, hreceives⟩ := claimCoinsForAction_receives hk hr hne haccount hclaim
  have hworth : 0 ≤ ctx.worth r.amountClaim := hvalue ▸ hpos
  rw [hreceives.reports_iff, hvalue, Coin.int64_toInt hamount]
  exact (Context.worth_eq_value_iff hworth).trans (or_iff_right hnonzero)

/-- With durations as an airdrop has them no more than all of an amount is claimable. -/
theorem Context.factor_le (hp : ctx.params.Sane) : ctx.factor ≤ 10000 := by
  by_cases hopen : ¬ctx.Started ∨ ctx.Ended
  · rw [factor, if_pos hopen]
    decide
  by_cases hdec : ctx.Decaying
  · obtain ⟨hs, hend⟩ := not_or.mp hopen
    exact (factor_decaying hp (not_not.mp hs) hdec hend).2.2
  · rw [factor, if_neg hopen, if_neg hdec]

/-- **The phase in which an amount is left whole**, with such durations: the decay may have
begun as long as it still rounds to nothing. -/
theorem Context.leaves_iff (hp : ctx.params.Sane) {amount : ℤ} :
    ctx.Leaves amount ↔ ctx.factor = 10000 := by
  have hle := factor_le hp
  constructor
  · rintro ⟨hs, hend, h⟩
    by_cases hdec : ctx.Decaying
    · exact le_antisymm hle (h hdec).1
    · rw [factor, if_neg (not_or.mpr ⟨not_not.mpr hs, hend⟩), if_neg hdec]
  · intro hf
    have hopen : ¬(¬ctx.Started ∨ ctx.Ended) := by
      intro hopen
      rw [factor, if_pos hopen] at hf
      cases hf
    obtain ⟨hs, hend⟩ := not_or.mp hopen
    refine ⟨not_not.mp hs, hend, fun _ => ⟨hf.ge, ?_⟩⟩
    rw [hf, sub_self, mul_zero]
    decide

/-! ## ClaimEth -/

/-- The claim amount of the merged record. -/
def mergedAmount (existing r : ClaimRecord) : ℤ :=
  if existing.isEmpty || !existing.amountClaim.isValid then r.amountClaim.value
  else existing.amountClaim.value + r.amountClaim.value

/-- The two claim amounts of the response. -/
def reportedAmount (existing r : ClaimRecord) : ℤ :=
  r.amountClaim.value + if existing.isEmpty then 0 else existing.amountClaim.value

/-- A record takes a claim amount in: it has none of its own, or one that is added. -/
def ClaimRecord.TakesIn (existing : ClaimRecord) : Prop :=
  existing.isEmpty = true ∨ existing.amountClaim.isValid = true ∨ existing.amountClaim.value = 0

instance (existing : ClaimRecord) : Decidable existing.TakesIn :=
  inferInstanceAs (Decidable (_ ∨ _))

theorem ClaimRecord.TakesIn.mergedAmount_eq {existing : ClaimRecord} (h : existing.TakesIn) :
    mergedAmount existing r = reportedAmount existing r := by
  unfold mergedAmount reportedAmount
  cases he : existing.isEmpty with
  | true => exact (add_zero _).symm
  | false =>
    rw [Bool.false_or, if_neg Bool.false_ne_true]
    rcases h with hempty | hvalid | hzero
    · rw [he] at hempty
      cases hempty
    · rw [hvalid]
      exact add_comm ..
    · rw [hzero, zero_add, add_zero, ite_self]

/-- A claim amount that is no coin is replaced by what is given, and reported all the same. -/
theorem amounts_of_not_takesIn {existing : ClaimRecord} (h : ¬existing.TakesIn) :
    mergedAmount existing r = r.amountClaim.value ∧
      reportedAmount existing r = r.amountClaim.value + existing.amountClaim.value := by
  obtain ⟨hne, h⟩ := not_or.mp h
  obtain ⟨hinvalid, -⟩ := not_or.mp h
  have hreplaced : (existing.isEmpty || !existing.amountClaim.isValid) = true := by
    rw [Bool.eq_false_of_not_eq_true hinvalid, Bool.not_false, Bool.or_true]
  exact ⟨if_pos hreplaced, congrArg (r.amountClaim.value + ·) (if_neg hne)⟩

theorem claimAmountOf_toInt {n : Int64} (h : claimAmountOf r s = .ok n s') :
    s' = s ∧ n.toInt = if r.isEmpty then 0 else r.amountClaim.value := by
  unfold claimAmountOf at h
  cases he : r.isEmpty with
  | true =>
    rw [he, if_pos rfl] at h
    obtain ⟨rfl, rfl⟩ := pure_ok.mp h
    exact ⟨rfl, rfl⟩
  | false =>
    rw [he, if_neg Bool.false_ne_true] at h
    obtain ⟨zero, hzero, h⟩ := ofOption_bind_ok.mp h
    obtain ⟨x, hx, rfl⟩ := Option.map_eq_some_iff.mp hzero
    rw [if_neg Bool.false_ne_true]
    split at h
    · rename_i hx0
      obtain ⟨rfl, rfl⟩ := pure_ok.mp h
      refine ⟨rfl, ?_⟩
      rw [Coin.value, hx, Option.getD_some, of_decide_eq_true hx0]
      rfl
    · obtain ⟨hn, rfl⟩ := ofOption_ok.mp h
      exact ⟨rfl, Coin.int64_toInt hn⟩

theorem mergeAmounts_merged {e : Coin} (h : mergeAmounts c d = some e) :
    e.value = (if c.isValid then c.value + d.value else d.value) ∧
      (ClaimRecord.counts d = true → ClaimRecord.counts e = true) := by
  unfold mergeAmounts at h
  cases hvalid : c.isValid with
  | false =>
    rw [hvalid, Bool.not_false, Bool.or_true, if_pos rfl] at h
    cases h
    exact ⟨(if_neg Bool.false_ne_true).symm, id⟩
  | true =>
    rw [hvalid, Coin.isNil_of_isValid hvalid, Bool.not_true, Bool.or_false,
      if_neg Bool.false_ne_true, Coin.add] at h
    split at h
    · cases h
    rename_i hdenom
    obtain ⟨x, hx, h⟩ := Option.bind_eq_some_iff.mp h
    obtain ⟨y, hy, h⟩ := Option.bind_eq_some_iff.mp h
    split at h
    · cases h
      have hcv : c.value = x := by rw [Coin.value, hx, Option.getD_some]
      have hdv : d.value = y := by rw [Coin.value, hy, Option.getD_some]
      rw [if_pos rfl, hcv, hdv]
      refine ⟨rfl, ?_⟩
      intro hd
      have hnonneg := Coin.value_nonneg hvalid
      have hd0 := Coin.value_nonneg (Bool.and_eq_true_iff.mp hd).1
      have hd1 := ClaimRecord.value_of_counts hd
      rw [hcv] at hnonneg
      rw [hdv] at hd0 hd1
      unfold ClaimRecord.counts
      rw [Bool.and_eq_true, decide_eq_true_eq]
      refine ⟨Coin.isValid_iff.mpr ⟨(Bool.and_eq_true_iff.mp hvalid).1, by omega⟩, ?_⟩
      change x + y ≠ 0
      omega
    · cases h

/-- A coin that counts is stored as it is. -/
theorem ClaimRecord.stored_not_isEmpty (h : r.isEmpty = false) : r.stored.isEmpty = false := by
  obtain ⟨haddr, a, ha⟩ := isEmpty_eq_false.mp h
  have hstored : (r.amount a).stored = r.amount a := by
    unfold Coin.stored
    conv_rhs => rw [Coin.eq_of_value (value_of_counts ha)]
    rfl
  have hamount : r.stored.amount a = (r.amount a).stored := by
    cases a <;> rfl
  exact isEmpty_eq_false.mpr ⟨haddr, a, by rw [hamount, hstored]; exact ha⟩

/-- What comes out of a merge into which something was given. -/
theorem mergeClaimRecords_merged (hq : q.isEmpty = false) (h : mergeClaimRecords r q = .ok m) :
    m.isEmpty = false ∧ m.address = q.address ∧ m.chain = q.chain ∧
      m.amountClaim.value = mergedAmount r q := by
  unfold mergeClaimRecords at h
  unfold mergedAmount
  cases he : r.isEmpty with
  | true =>
    rw [he, if_pos rfl] at h
    cases h
    exact ⟨hq, rfl, rfl, rfl⟩
  | false =>
    rw [he, if_neg Bool.false_ne_true, hq, if_neg Bool.false_ne_true] at h
    split at h
    · cases h
    rename_i haddr
    split at h
    · cases h
    rename_i hchain
    split at h
    · rename_i claim delegate vote hc hd hv
      cases h
      obtain ⟨-, a, ha⟩ := ClaimRecord.isEmpty_eq_false.mp hq
      refine ⟨ClaimRecord.isEmpty_eq_false.mpr
        ⟨(ClaimRecord.isEmpty_eq_false.mp he).1, a, ?_⟩, not_not.mp haddr, not_not.mp hchain, ?_⟩
      · cases a with
        | claim => exact (mergeAmounts_merged hc).2 ha
        | vote => exact (mergeAmounts_merged hv).2 ha
        | delegate => exact (mergeAmounts_merged hd).2 ha
      · rw [(mergeAmounts_merged hc).1, Bool.false_or]
        cases r.amountClaim.isValid <;> rfl
    · cases h

/-- What `ClaimEth` has done when it succeeds. -/
theorem claimEth_inv {creator ethAddress signature : String} {resp : ClaimEthResponse}
    {existing : ClaimRecord} (hk : s.Kept env) (hr : getClaimRecord ethAddress .ethereum s = r)
    (hexisting : getClaimRecord creator .arkeo s = existing)
    (h : claimEth env ctx creator ethAddress signature s = .ok resp s') :
    r.isEmpty = false ∧ resp.ethClaimAmount.toInt = r.amountClaim.value ∧
      resp.arkeoClaimAmount.toInt = (if existing.isEmpty then 0 else existing.amountClaim.value) ∧
      ∃ m coin, mergeClaimRecords existing (r.given creator) = .ok m ∧
        env.isValidAddress m.address m.chain = true ∧
        claimCoinsForAction env ctx creator .claim ((s.wiped r).put m) = .ok coin s' := by
  unfold claimEth at h
  rw [reading_bind, hr] at h
  obtain ⟨b, t, hleft, hrest⟩ := bind_ok.mp h
  obtain ⟨hb, hrest⟩ := failIf_bind_ok.mp hrest
  rw [hb] at hleft
  obtain ⟨hne, rfl⟩ := nothingLeft_ok hleft
  obtain ⟨total, -, hrest⟩ := ofOption_bind_ok.mp hrest
  obtain ⟨ethAmount, hamount, hrest⟩ := ofOption_bind_ok.mp hrest
  obtain ⟨-, hrest⟩ := failIf_bind_ok.mp hrest
  obtain ⟨_, t, hwipe, hrest₁⟩ := bind_ok.mp hrest
  obtain ⟨-, rfl⟩ := setClaimRecord_ok.mp hwipe
  rw [reading_bind, show getClaimRecord creator .arkeo (s.put (r.setAllAmounts {})) = existing from
    (getClaimRecord_wiped hk hr hne).trans hexisting] at hrest₁
  obtain ⟨n, t, hread, hrest₂⟩ := bind_ok.mp hrest₁
  obtain ⟨rfl, hn⟩ := claimAmountOf_toInt hread
  obtain ⟨m, _, hmerge, hrest₃⟩ := bind_ok.mp hrest₂
  obtain ⟨hm, rfl⟩ := fromExcept_ok.mp hmerge
  obtain ⟨_, t, hset, hrest₄⟩ := bind_ok.mp hrest₃
  obtain ⟨hmv, rfl⟩ := setClaimRecord_ok.mp hset
  obtain ⟨coin, t, hclaim, hend⟩ := bind_ok.mp hrest₄
  obtain ⟨rfl, rfl⟩ := pure_ok.mp hend
  exact ⟨hne, Coin.int64_toInt hamount, hn, m, coin, hm, hmv, hclaim⟩

/-- The condition for a `ClaimEth` to report what it pays: the record of the claimer takes the
claim amount in, and of the sum there is nothing or the time leaves it whole.  A record whose
own amount is no coin is replaced; then this amount has to be a debt, by coincidence that which
makes up for the time. -/
def Context.ReportsMerged (ctx : Context) (existing r : ClaimRecord) : Prop :=
  if existing.TakesIn then
    reportedAmount existing r = 0 ∨ ctx.Leaves (reportedAmount existing r)
  else ctx.Offsets existing.amountClaim.value r.amountClaim.value

theorem claimEth_reports (henv : env.accAddressFromBech32 "" = none) (hk : s.Kept env)
    {creator ethAddress signature : String} {resp : ClaimEthResponse} {existing : ClaimRecord}
    (hr : getClaimRecord ethAddress .ethereum s = r)
    (hexisting : getClaimRecord creator .arkeo s = existing)
    (haccount : env.accAddressFromBech32 creator = some account)
    (h : claimEth env ctx creator ethAddress signature s = .ok resp s') :
    s.Reports s' account (resp.ethClaimAmount.toInt + resp.arkeoClaimAmount.toInt) ↔
      ctx.ReportsMerged existing r := by
  obtain ⟨hne, heth, harkeo, m, coin, hm, hmv, hclaim⟩ := claimEth_inv hk hr hexisting h
  have hcreator : creator ≠ "" := by
    rintro rfl
    rw [henv] at haccount
    cases haccount
  have hgiven : (r.given creator).isEmpty = false := by
    obtain ⟨-, a, ha⟩ := ClaimRecord.isEmpty_eq_false.mp hne
    exact ClaimRecord.isEmpty_eq_false.mpr ⟨hcreator, a, by rw [r.given_amount]; exact ha⟩
  obtain ⟨hmne, hmaddr, hmchain, hmamount⟩ := mergeClaimRecords_merged hgiven hm
  have hmvalue : m.amountClaim.value = mergedAmount existing r := hmamount
  have hv := (hk.of_not_isEmpty (hr ▸ hne)).2.1
  rw [hr] at hv
  have hkept : ((s.wiped r).put m).Kept env := (hk.put (r := r.setAllAmounts {}) hv).put hmv
  have hread : getClaimRecord creator .arkeo ((s.wiped r).put m) = m.stored := by
    rw [getClaimRecord_put, if_pos (by rw [hmaddr, hmchain]; rfl)]
  obtain ⟨hvalue, hpos, hreceives⟩ := claimCoinsForAction_receives hkept hread
    (ClaimRecord.stored_not_isEmpty hmne) haccount hclaim
  have hreceives : s.Receives s' account coin := hreceives
  have hpaid : coin.value = ctx.worth m.amountClaim := hvalue
  rw [hreceives.reports_iff, hpaid, heth, harkeo]
  change ctx.worth m.amountClaim = reportedAmount existing r ↔ _
  unfold Context.ReportsMerged
  split
  · rename_i htakes
    rw [← htakes.mergedAmount_eq, ← hmvalue]
    exact Context.worth_eq_value_iff (hpaid ▸ hpos)
  · rename_i htakes
    obtain ⟨hmerged, hboth⟩ := amounts_of_not_takesIn (r := r) htakes
    rw [hboth, ← hmerged, ← hmvalue]
    refine Context.worth_eq_add_iff (hpaid ▸ hpos) fun hzero => ?_
    exact htakes (.inr (.inr hzero))

/-! ## Every reachable store -/

/-- **What the responses report.**  In every store that a run reaches, with any parameters and
at any time: the response of a `ClaimArkeo` that succeeds is what the claimer receives exactly
if the airdrop has started and takes nothing of the claim amount yet, and that of a `ClaimEth`
exactly if in addition the record of the claimer takes the amount in. -/
theorem responses_iff (ctx : Context) (henv : env.accAddressFromBech32 "" = none) {bank : Ledger Holder String}
    {records : List ClaimRecord} (hgen : initGenesis env bank records = some s₀) {msgs : List Msg}
    (hrun : Runs.run (step env) (genesis s₀ ctx₀) msgs = some w) {creator : String}
    (haccount : env.accAddressFromBech32 creator = some account)
    {existing : ClaimRecord} (hexisting : getClaimRecord creator .arkeo w.store = existing) :
    (∀ resp s', claimArkeo env ctx creator w.store = .ok resp s' →
      (w.store.Reports s' account resp.2.toInt ↔ ctx.Leaves existing.amountClaim.value)) ∧
    ∀ ethAddress signature resp s' r, getClaimRecord ethAddress .ethereum w.store = r →
      claimEth env ctx creator ethAddress signature w.store = .ok resp s' →
      (w.store.Reports s' account (resp.ethClaimAmount.toInt + resp.arkeoClaimAmount.toInt) ↔
        ctx.ReportsMerged existing r) := by
  have hk := reachable_kept hgen hrun
  refine ⟨?_, ?_⟩
  · intro resp s' h
    exact claimArkeo_reports hk hexisting haccount h
  · intro ethAddress signature resp s' r hr h
    exact claimEth_reports henv hk hr hexisting haccount h

namespace Sample

/-- The holder can claim the record of the signer. -/
theorem claimEth_signed {ctx : Context} (hk : s.Kept signedEnv) (hrun : ctx.Running)
    (hr : getClaimRecord signer .ethereum s = signed)
    (hgiven : getClaimRecord holder .arkeo s = given) (hc : ctx.Computes (coins 20))
    (hpos : 0 ≤ ctx.worth (coins 20))
    (hfund : ctx.worth (coins 20) ≤ s.bank.bal .module defaultClaimDenom) :
    ∃ resp s', claimEth signedEnv ctx holder signer signature s = .ok resp s' := by
  have hne : signed.isEmpty = false := by decide
  have hexisting : getClaimRecord holder .arkeo (s.wiped signed) = given :=
    (getClaimRecord_wiped hk hr hne).trans hgiven
  refine (claimEth_succeeds hk hr hne hexisting ?_).mpr
    ⟨⟨by decide, by decide, ⟨rfl, by decide⟩, rfl, by decide⟩, by decide, .inr (by decide), ?_⟩
  · intro total htotal
    obtain rfl : total = coins 18 := Option.some.inj (htotal.symm.trans (by decide))
    exact signature_valid
  · have hv := (hk.of_not_isEmpty (hr ▸ hne)).2.1
    rw [hr] at hv
    have hkept : (s.wiped signed).Kept signedEnv := hk.put hv
    have hstored : (signed.given holder).stored = signed.given holder := rfl
    have hreceives := receives_iff (by decide) hkept hrun hstored rfl ⟨.claim, by decide⟩ hexisting hfund
    refine (hreceives.mpr ⟨by decide, ?_, ?_⟩).1
    · refine (if_neg (by decide)).mpr ⟨rfl, ?_⟩
      intro a
      cases a <;> decide
    · exact .inr ⟨hc, .inr ⟨by decide, hpos, _, rfl, rfl⟩⟩

/-- Before the decay, the holder is told of the ten and ten coins that are paid, and of the ten
of its own record. -/
theorem reported_before_decay : ∃ s₀ w account,
    initGenesis signedEnv bank [given, taking, signed] = some s₀ ∧
    Runs.run (step signedEnv) (genesis s₀ Sample.ctx) [.nextBlock 50] = some w ∧
    signedEnv.accAddressFromBech32 holder = some account ∧
    (∃ resp s', claimEth signedEnv w.ctx holder signer signature w.store = .ok resp s' ∧
      w.store.Reports s' account (resp.ethClaimAmount.toInt + resp.arkeoClaimAmount.toInt)) ∧
    ∃ resp s', claimArkeo signedEnv w.ctx holder w.store = .ok resp s' ∧
      w.store.Reports s' account resp.2.toInt := by
  obtain ⟨s₀, w, hs, hw, hf⟩ := after_eq (fun w => (w.ctx, getClaimRecord holder .arkeo w.store,
      getClaimRecord signer .ethereum w.store, w.store.bank.bal .module defaultClaimDenom,
      match claimArkeo signedEnv w.ctx holder w.store with
      | .ok _ _ => true
      | _ => false))
    (show (after [.nextBlock 50]).map _ =
      some ({ Sample.ctx with blockTime := 50 }, given, signed, 1000, true) by decide +kernel)
  simp only [Prod.mk.injEq] at hf
  obtain ⟨hctx, hgiven, hsigned, hbal, hok⟩ := hf
  have hleaves : ∀ amount, w.ctx.Leaves amount := by
    intro amount
    rw [hctx]
    exact ⟨by decide, by decide, fun h => absurd h (by decide)⟩
  obtain ⟨account, haccount⟩ : ∃ account, signedEnv.accAddressFromBech32 holder = some account :=
    ⟨_, rfl⟩
  have hreports := responses_iff w.ctx (by decide) hs hw haccount hgiven
  refine ⟨s₀, w, account, hs, hw, haccount, ?_, ?_⟩
  · have hcoins : w.ctx.Running ∧ w.ctx.Computes (coins 20) ∧ 0 ≤ w.ctx.worth (coins 20) ∧
        w.ctx.worth (coins 20) ≤ 1000 := by
      rw [hctx]
      exact ⟨⟨by decide, by decide⟩, by decide +kernel⟩
    obtain ⟨hrunning, hc, hpos, hle⟩ := hcoins
    obtain ⟨resp, s', hrun⟩ := claimEth_signed (reachable_kept hs hw) hrunning hsigned hgiven hc hpos
      (by rw [hbal]; exact hle)
    refine ⟨resp, s', hrun, (hreports.2 signer signature resp s' signed hsigned hrun).mpr ?_⟩
    exact (if_pos (by decide)).mpr (.inr (hleaves _))
  · cases hrun : claimArkeo signedEnv w.ctx holder w.store with
    | error e s' =>
      rw [hrun] at hok
      cases hok
    | ok resp s' =>
      exact ⟨resp, s', rfl, (hreports.1 resp s' hrun).mpr (hleaves _)⟩

/-- **Told of ten, paid five**: a claim half-way through the decay. -/
theorem misreported_halfway : ∃ s₀ w account resp s',
    initGenesis signedEnv bank [given, taking, signed] = some s₀ ∧
    Runs.run (step signedEnv) (genesis s₀ Sample.ctx) [.nextBlock 150] = some w ∧
    signedEnv.accAddressFromBech32 holder = some account ∧
    claimArkeo signedEnv w.ctx holder w.store = .ok resp s' ∧ resp = (holder, 10) ∧
    ¬w.store.Reports s' account resp.2.toInt := by
  obtain ⟨s₀, w, hs, hw, hf⟩ := after_eq (fun w => (w.ctx, getClaimRecord holder .arkeo w.store,
      match claimArkeo signedEnv w.ctx holder w.store with
      | .ok resp _ => some resp
      | _ => none))
    (show (after [.nextBlock 150]).map _ =
      some ({ Sample.ctx with blockTime := 150 }, given, some (holder, (10 : Int64))) by decide +kernel)
  simp only [Prod.mk.injEq] at hf
  obtain ⟨hctx, hgiven, hresp⟩ := hf
  cases hrun : claimArkeo signedEnv w.ctx holder w.store with
  | error e s' =>
    rw [hrun] at hresp
    cases hresp
  | ok resp s' =>
    rw [hrun] at hresp
    obtain rfl := Option.some.inj hresp
    obtain ⟨account, haccount⟩ : ∃ account, signedEnv.accAddressFromBech32 holder = some account :=
      ⟨_, rfl⟩
    refine ⟨s₀, w, account, _, s', hs, hw, haccount, hrun, rfl, ?_⟩
    have hsane : w.ctx.params.Sane := by
      rw [hctx]
      exact ⟨by decide, by decide, by decide⟩
    have hfactor : w.ctx.factor ≠ 10000 := by
      rw [hctx]
      decide +kernel
    rw [claimArkeo_reports (reachable_kept hs hw) hgiven haccount hrun, Context.leaves_iff hsane]
    exact hfactor

end Sample

end Arkeo.Airdrop
