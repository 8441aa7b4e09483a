import Arkeo.Deposits
import Arkeo.Sentinel.Claimable
import Arkeo.Sentinel.Gate

/-! # Pay-as-you-go requests and the deposit

`paidTier` lets a pay-as-you-go contract run up to its deposit: the nonce times the rate is
compared with it.  The product is one of 64 bits, while the rate and the deposit are big
integers on the chain, and reading one of them as an `int64` panics when it is too large.
The comparison means what it says exactly as long as everything fits
(`paidTier_within_deposit_iff`).
-/
namespace Arkeo.Sentinel
open Exec Text

variable {cr : Crypto} {cfg : Config} {hub : Hub} {s t : State} {aa : ArkAuth} {limited : Bool}
  {c : CachedContract} {d rate : ℤ}

/-! ## Numbers that fit -/

/-- The number is one of 64 bits. -/
def Fits (x : ℤ) : Prop := -2 ^ 63 ≤ x ∧ x < 2 ^ 63

instance (x : ℤ) : Decidable (Fits x) := inferInstanceAs (Decidable (_ ∧ _))

theorem int64?_some {x : ℤ} : (∃ n, int64? (some x) = some n) ↔ Fits x := by
  unfold int64? Fits
  rw [Option.bind_some]
  by_cases h : -2 ^ 63 ≤ x ∧ x < 2 ^ 63
  · rw [if_pos h]
    exact ⟨fun _ => h, fun _ => ⟨_, rfl⟩⟩
  · rw [if_neg h]
    exact ⟨nofun, fun h' => absurd h' h⟩

theorem int64?_eq_some {x : ℤ} {n : Int64} (h : int64? (some x) = some n) : n.toInt = x := by
  unfold int64? at h
  rw [Option.bind_some] at h
  split at h
  · rename_i hfits
    obtain rfl := Option.some.inj h
    exact Int64.toInt_ofInt_of_le (by omega) (by omega)
  · cases h

/-- What a nonce costs, as `paidTier` computes it. -/
def wrappedCost (nonce : Int64) (rate : ℤ) : ℤ := (nonce.toInt * rate).bmod (2 ^ 64)

theorem toInt_mul_eq_wrappedCost {nonce n : Int64} (h : int64? (some rate) = some n) :
    (nonce * n).toInt = wrappedCost nonce rate := by
  rw [Int64.toInt_mul, int64?_eq_some h, wrappedCost]

/-- A cost that wraps around is at most what it stands for, unless that is below the range
of 64 bits. -/
theorem le_wrappedCost {nonce : Int64} (h : nonce.toInt * rate < 2 ^ 63) :
    nonce.toInt * rate ≤ wrappedCost nonce rate := by
  unfold wrappedCost
  by_cases hlow : -2 ^ 63 ≤ nonce.toInt * rate
  · exact (Int.bmod_eq_of_le (by omega) (by omega)).ge
  · have hge := Int.le_bmod (x := nonce.toInt * rate) (m := 2 ^ 64) (by decide)
    omega

/-! ## What the paid tier answers -/

theorem covers_iff_wrappedCost (hp : c.isPayAsYouGo = true) {nonce : Int64} :
    c.Covers nonce ↔ ∃ d rate, c.deposit = some d ∧ c.rate.2 = some rate ∧ Fits rate ∧
      wrappedCost nonce rate ≤ d := by
  unfold CachedContract.Covers
  constructor
  · intro h
    obtain ⟨d, n, hd, hn, hle⟩ := h hp
    cases hr : c.rate.2 with
    | none =>
      rw [hr] at hn
      cases hn
    | some rate =>
      rw [hr] at hn
      rw [toInt_mul_eq_wrappedCost hn] at hle
      exact ⟨d, rate, hd, rfl, int64?_some.mp ⟨n, hn⟩, hle⟩
  · rintro ⟨d, rate, hd, hr, hfits, hle⟩ -
    obtain ⟨n, hn⟩ := int64?_some.mpr hfits
    rw [hr]
    refine ⟨d, n, hd, hn, ?_⟩
    rw [toInt_mul_eq_wrappedCost hn]
    exact hle

/-- The test of the deposit panics on a rate it cannot read. -/
theorem checkDeposit_panic_iff (hp : c.isPayAsYouGo = true) {nonce : Int64} {u : State} :
    checkDeposit c nonce s = .error .panic u ↔
      (∃ d, c.deposit = some d) ∧ (¬∃ n, int64? c.rate.2 = some n) ∧ s = u := by
  unfold checkDeposit
  rw [if_pos hp]
  cases hd : c.deposit with
  | none => simp [bind_error, ofOption]
  | some d =>
    cases hr : int64? c.rate.2 with
    | none => simp [bind_error]
    | some n => simp [bind_error]

theorem checkContract_panic_iff (hp : c.isPayAsYouGo = true) {u : State} :
    checkContract c aa limited s = .error .panic u ↔
      c.isExpired s.blockHeight = false ∧ (∃ d, c.deposit = some d) ∧
        (¬∃ n, int64? c.rate.2 = some n) ∧ s = u := by
  unfold checkContract
  rw [reading_bind]
  constructor
  · intro h
    rcases bind_error.mp h with h | ⟨_, _, hx, h⟩
    · exact absurd (failIf_error.mp h).2.1 nofun
    · obtain ⟨hexp, rfl⟩ := failIf_ok.mp hx
      rcases bind_error.mp h with h | ⟨_, _, -, h⟩
      · exact ⟨hexp, (checkDeposit_panic_iff hp).mp h⟩
      · exact absurd (failIf_error.mp h).2.1 nofun
  · rintro ⟨hexp, hpanic⟩
    refine bind_error.mpr (.inr ⟨(), s, failIf_ok.mpr ⟨hexp, rfl⟩, ?_⟩)
    exact bind_error.mpr (.inl ((checkDeposit_panic_iff hp).mpr hpanic))

/-- A claim is stored, and the usage of its contract cannot be logged. -/
theorem payByClaim_panic_iff :
    (∃ u, payByClaim cr cfg c aa s = .error .panic u) ↔
      aa.Signed cr ∧ s.Fresh aa ∧ ¬c.Loggable := by
  unfold payByClaim
  constructor
  · rintro ⟨u, h⟩
    rcases bind_error.mp h with h | ⟨_, _, hx, h⟩
    · rcases bind_error.mp h with h | ⟨_, _, -, h⟩
      · exact absurd (ofOption_error.mp h).2.1 nofun
      · exact absurd (failIf_error.mp h).2.1 nofun
    · obtain ⟨hsig, rfl⟩ := checkSignature_ok.mp hx
      rcases s.fresh_or_stale aa with hf | ⟨claim, hl, hn⟩
      · refine ⟨hsig, hf, ?_⟩
        intro hlog
        rcases bind_error.mp h with h | ⟨_, v, -, h⟩
        · rw [storeClaim_of_fresh cfg hf] at h
          cases h
        · rcases bind_error.mp h with h | ⟨_, _, -, h⟩
          · rw [logUsage_of_loggable hlog] at h
            cases h
          · cases h
      · rcases bind_error.mp h with h | ⟨_, _, hst, -⟩
        · rw [storeClaim_of_stale cfg hl hn] at h
          cases h
        · rw [storeClaim_of_stale cfg hl hn] at hst
          cases hst
  · rintro ⟨hsig, hf, hlog⟩
    refine ⟨memStorePut { c with nonce := aa.nonce } (s.withClaim cfg aa), ?_⟩
    refine bind_error.mpr (.inr ⟨(), s, checkSignature_ok.mpr ⟨hsig, rfl⟩, ?_⟩)
    refine bind_error.mpr (.inr ⟨(), _, storeClaim_of_fresh cfg hf, ?_⟩)
    exact bind_error.mpr (.inl ((logUsage_cases c aa.nonce _).resolve_left hlog))

/-- **When the paid tier panics**: on a rate it cannot read, or once a claim has been stored
whose contract cannot be logged. -/
theorem paidTier_panic_iff (hp : c.isPayAsYouGo = true)
    (hget : memStoreGet hub aa.contractId s = (some c, t)) :
    (∃ u, paidTier cr cfg hub aa limited s = .error .panic u) ↔
      (c.isExpired t.blockHeight = false ∧ (∃ d, c.deposit = some d) ∧
          ¬∃ n, int64? c.rate.2 = some n) ∨
        Admits c (aa.inferSpender c) limited t ∧ c.isOpenAuthorization = false ∧
          (aa.inferSpender c).Signed cr ∧ t.Fresh (aa.inferSpender c) ∧ ¬c.Loggable := by
  rw [paidTier_eq hget, chargeContract]
  constructor
  · rintro ⟨u, h⟩
    rcases bind_error.mp h with h | ⟨_, _, hc, h⟩
    · obtain ⟨hexp, hd, hr, -⟩ := (checkContract_panic_iff hp).mp h
      exact .inl ⟨hexp, hd, hr⟩
    · obtain ⟨ha, rfl⟩ := checkContract_ok.mp hc
      cases ho : c.isOpenAuthorization with
      | true =>
        rw [if_pos ho] at h
        cases h
      | false =>
        rw [if_neg (by rw [ho]; exact Bool.false_ne_true)] at h
        exact .inr ⟨ha, rfl, payByClaim_panic_iff.mp ⟨u, h⟩⟩
  · rintro (⟨hexp, hd, hr⟩ | ⟨ha, ho, hpay⟩)
    · exact ⟨t, bind_error.mpr (.inl ((checkContract_panic_iff hp).mpr ⟨hexp, hd, hr, rfl⟩))⟩
    · obtain ⟨u, h⟩ := payByClaim_panic_iff.mpr hpay
      refine ⟨u, bind_error.mpr (.inr ⟨(), t, checkContract_ok.mpr ⟨ha, rfl⟩, ?_⟩)⟩
      rw [if_neg (by rw [ho]; exact Bool.false_ne_true)]
      exact h

/-! ## The deposit -/

/-- The paid tier does not panic, and whatever it serves costs at most the deposit. -/
def WithinDeposit (cr : Crypto) (cfg : Config) (hub : Hub) (aa : ArkAuth) (limited : Bool)
    (c : CachedContract) (s : State) : Prop :=
  (¬∃ u, paidTier cr cfg hub aa limited s = .error .panic u) ∧
    ∀ charge u, paidTier cr cfg hub aa limited s = .ok charge u →
      ∃ d rate, c.deposit = some d ∧ c.rate.2 = some rate ∧ aa.nonce.toInt * rate ≤ d

/-- The tests that are left once the amounts are known: the cost as it is computed, the
rate limit and, unless the contract is open, the signature and the nonce. -/
structure PassesTests (cr : Crypto) (aa : ArkAuth) (limited : Bool) (c : CachedContract) (d rate : ℤ)
    (t : State) : Prop where
  cost : wrappedCost aa.nonce rate ≤ d
  unlimited : limited = false
  paid : c.isOpenAuthorization = true ∨
    (aa.inferSpender c).Signed cr ∧ t.Fresh (aa.inferSpender c)

/-- What a request costs is computed without wrapping around, and the deposit can be logged;
an open contract only has to cover the cost. -/
def CostFits (c : CachedContract) (nonce : Int64) (d rate : ℤ) : Prop :=
  if c.isOpenAuthorization = true then nonce.toInt * rate < 2 ^ 63 ∨ nonce.toInt * rate ≤ d
  else nonce.toInt * rate < 2 ^ 63 ∧ d < 2 ^ 63

/-- **The condition.**  Of a contract that has not expired and has a deposit, the rate fits
in 64 bits, and the cost of every request that passes the tests does too. -/
def AmountsFit (cr : Crypto) (aa : ArkAuth) (limited : Bool) (c : CachedContract) (t : State) :
    Prop :=
  c.isExpired t.blockHeight = false → ∀ d, c.deposit = some d →
    ∃ rate, c.rate.2 = some rate ∧ Fits rate ∧
      (PassesTests cr aa limited c d rate t → CostFits c aa.nonce d rate)

/-- The contract that is not expired and admits the request, and its amounts. -/
theorem admits_iff (hp : c.isPayAsYouGo = true) (hd : c.deposit = some d)
    (hr : c.rate.2 = some rate) (hfits : Fits rate) :
    Admits c (aa.inferSpender c) limited t ↔ c.isExpired t.blockHeight = false ∧
      wrappedCost aa.nonce rate ≤ d ∧ limited = false := by
  constructor
  · rintro ⟨hexp, hcovers, hlim⟩
    obtain ⟨d', rate', hd', hr', -, hle⟩ := (covers_iff_wrappedCost hp).mp hcovers
    obtain rfl := Option.some.inj (hd.symm.trans hd')
    obtain rfl := Option.some.inj (hr.symm.trans hr')
    rw [ArkAuth.inferSpender_nonce] at hle
    exact ⟨hexp, hle, hlim⟩
  · rintro ⟨hexp, hle, hlim⟩
    refine ⟨hexp, (covers_iff_wrappedCost hp).mpr ⟨d, rate, hd, hr, hfits, ?_⟩, hlim⟩
    rw [ArkAuth.inferSpender_nonce]
    exact hle

/-- A deposit that a 64-bit cost stays within is not below the range of 64 bits. -/
theorem neg_two_pow_le_of_wrappedCost {nonce : Int64} (h : wrappedCost nonce rate ≤ d) :
    -2 ^ 63 ≤ d := by
  have hge := Int.le_bmod (x := nonce.toInt * rate) (m := 2 ^ 64) (by decide)
  unfold wrappedCost at h
  omega

/-- What is served is paid for by the deposit, if the cost fits; and only then. -/
theorem costFits_iff {nonce : Int64} (hle : wrappedCost nonce rate ≤ d) :
    CostFits c nonce d rate ↔
      nonce.toInt * rate ≤ d ∧ (c.isOpenAuthorization = false → Fits d) := by
  have hlow := neg_two_pow_le_of_wrappedCost hle
  unfold CostFits
  cases ho : c.isOpenAuthorization with
  | true =>
    rw [if_pos rfl]
    constructor
    · rintro (hlt | hcost)
      · exact ⟨(le_wrappedCost hlt).trans hle, nofun⟩
      · exact ⟨hcost, nofun⟩
    · exact fun h => .inr h.1
  | false =>
    rw [if_neg Bool.false_ne_true]
    constructor
    · rintro ⟨hlt, hd⟩
      exact ⟨(le_wrappedCost hlt).trans hle, fun _ => ⟨hlow, hd⟩⟩
    · rintro ⟨hcost, hfits⟩
      exact ⟨hcost.trans_lt (hfits rfl).2, (hfits rfl).2⟩

/-- **Pay-as-you-go requests stay within the deposit exactly when the amounts fit.** -/
theorem paidTier_within_deposit_iff (hp : c.isPayAsYouGo = true)
    (hget : memStoreGet hub aa.contractId s = (some c, t)) :
    WithinDeposit cr cfg hub aa limited c s ↔ AmountsFit cr aa limited c t := by
  unfold WithinDeposit
  rw [paidTier_panic_iff hp hget]
  constructor
  · rintro ⟨hpanic, hok⟩ hexp d hd
    rw [not_or] at hpanic
    obtain ⟨hread, hlog⟩ := hpanic
    have hn : ∃ n, int64? c.rate.2 = some n := by
      by_contra hn
      exact hread ⟨hexp, ⟨d, hd⟩, hn⟩
    cases hr : c.rate.2 with
    | none =>
      rw [hr] at hn
      obtain ⟨n, hn⟩ := hn
      cases hn
    | some rate =>
      rw [hr] at hn
      have hfits := int64?_some.mp hn
      refine ⟨rate, rfl, hfits, ?_⟩
      rintro ⟨hcost, hlim, hpaid⟩
      have ha : Admits c (aa.inferSpender c) limited t :=
        (admits_iff hp hd hr hfits).mpr ⟨hexp, hcost, hlim⟩
      have hdfits : c.isOpenAuthorization = false → Fits d := by
        intro ho
        have hsigned := hpaid.resolve_left (by rw [ho]; exact Bool.false_ne_true)
        by_contra hd'
        refine hlog ⟨ha, ho, hsigned.1, hsigned.2, ?_⟩
        rintro ⟨-, hn⟩
        rw [hd] at hn
        exact hd' (int64?_some.mp hn)
      have hserved : ∃ u, paidTier cr cfg hub aa limited s =
          .ok { contractId := aa.contractId, nonce := aa.nonce, isOpen := c.isOpenAuthorization }
            u := by
        refine (paidTier_ok_iff hget).mpr ⟨⟨ha, ?_⟩, rfl⟩
        cases ho : c.isOpenAuthorization with
        | true => exact .inl rfl
        | false =>
          have hsigned := hpaid.resolve_left (by rw [ho]; exact Bool.false_ne_true)
          refine .inr ⟨hsigned.1, hsigned.2, ?_, ?_⟩
          · rw [hr]
            exact hn
          · rw [hd]
            exact int64?_some.mpr (hdfits ho)
      obtain ⟨u, hu⟩ := hserved
      obtain ⟨d', rate', hd', hr', hle⟩ := hok _ u hu
      obtain rfl := Option.some.inj (hd.symm.trans hd')
      obtain rfl := Option.some.inj (hr.symm.trans hr')
      exact (costFits_iff hcost).mpr ⟨hle, hdfits⟩
  · intro hfit
    refine ⟨?_, ?_⟩
    · rintro (⟨hexp, ⟨d, hd⟩, hn⟩ | ⟨ha, ho, hsig, hf, hlog⟩)
      · obtain ⟨rate, hr, hfits, -⟩ := hfit hexp d hd
        rw [hr] at hn
        exact hn (int64?_some.mpr hfits)
      · obtain ⟨d, -, hd, -⟩ := (covers_iff_wrappedCost hp).mp ha.covers
        obtain ⟨rate, hr, hfits, htests⟩ := hfit ha.unexpired d hd
        obtain ⟨-, hcost, hlim⟩ := (admits_iff hp hd hr hfits).mp ha
        have hcf := htests ⟨hcost, hlim, .inr ⟨hsig, hf⟩⟩
        refine hlog ⟨?_, ?_⟩
        · rw [hr]
          exact int64?_some.mpr hfits
        · rw [hd]
          exact int64?_some.mpr (((costFits_iff hcost).mp hcf).2 ho)
    · intro charge u hu
      obtain ⟨hs, -⟩ := (paidTier_ok_iff hget).mp ⟨u, hu⟩
      obtain ⟨d, -, hd, -⟩ := (covers_iff_wrappedCost hp).mp hs.admits.covers
      obtain ⟨rate, hr, hfits, htests⟩ := hfit hs.admits.unexpired d hd
      obtain ⟨-, hcost, hlim⟩ := (admits_iff hp hd hr hfits).mp hs.admits
      have hcf := htests ⟨hcost, hlim, hs.paid.imp_right fun h => ⟨h.1, h.2.1⟩⟩
      exact ⟨d, rate, hd, hr, ((costFits_iff hcost).mp hcf).1⟩

namespace Sample
open Arkeo.Sample

/-- The client's signature over `2:922337203685477581:`. -/
def wrappingSignature : Bytes :=
  [146, 71, 46, 215, 76, 111, 75, 172, 143, 115, 224, 178, 19, 35, 80, 241, 47, 39, 70, 61, 100,
    62, 242, 117, 238, 238, 18, 225, 26, 48, 36, 89, 107, 186, 106, 124, 8, 33, 102, 3, 107, 158,
    43, 196, 147, 60, 85, 28, 46, 50, 208, 164, 152, 161, 199, 127, 152, 19, 213, 177, 6, 182, 3,
    45]

/-- At a rate of 10 the nonce costs 2^63 + 2. -/
def wrappingAuth : ArkAuth where
  contractId := 2
  nonce := 922337203685477581
  signature := wrappingSignature
  chainId := "arkeo"

def wrappingCrypto : Crypto :=
  Crypto.known [provider, client]
    [(client.key, [50, 58, 57, 50, 50, 51, 51, 55, 50, 48, 51, 54, 56, 53, 52, 55, 55, 53, 56, 49, 58],
      wrappingSignature)] [] []

/-- The contract as the sentinel has it from the event. -/
def opened : CachedContract where
  provider := provider.pubKey
  service := serviceLookup service
  client := client.pubKey
  delegate := client.pubKey
  type := .payAsYouGo
  height := 1
  duration := 1
  rate := (denom, some 10)
  deposit := some 100
  id := 2
  settlementDuration := 1
  queriesPerMinute := 1

theorem opened_get : memStoreGet silent 2 watching.state = (some opened, watching.state) := by
  have hlook : watching.state.db.lookup 2 = some opened := by decide +kernel
  have hexp : opened.isExpired watching.state.blockHeight = false := by decide +kernel
  rw [memStoreGet, hlook]
  simp only [hexp, Bool.false_eq_true, if_false]

/-- The same contract at a rate beyond 64 bits. -/
def dear : CachedContract := { opened with rate := (denom, some (2 ^ 63)) }

/-- The sentinel has only that contract. -/
def dearState : State := memStorePut dear { blockHeight := 1 }

theorem dear_get : memStoreGet silent 2 dearState = (some dear, dearState) := by
  have hlook : dearState.db.lookup 2 = some dear := by decide +kernel
  have hexp : dear.isExpired dearState.blockHeight = false := by decide +kernel
  rw [memStoreGet, hlook]
  simp only [hexp, Bool.false_eq_true, if_false]

end Sample

/-- The client's fifth query. -/
theorem fifth_query_within_deposit : ∃ c t,
    memStoreGet Sample.silent 2 Sample.watching.state = (some c, t) ∧ c.isPayAsYouGo = true ∧
    (WithinDeposit Sample.crypto Sample.config Sample.silent Sample.clientAuth false c
      Sample.watching.state ↔ AmountsFit Sample.crypto Sample.clientAuth false c t) :=
  ⟨Sample.opened, _, Sample.opened_get, by decide,
    paidTier_within_deposit_iff (by decide) Sample.opened_get⟩

/-- **A nonce that wraps around is served.**  The deposit of 100 covers ten calls at the rate
of 10; the request with nonce 922337203685477581 is served. -/
theorem wrapping_nonce_served :
    memStoreGet Sample.silent 2 Sample.watching.state =
        (some Sample.opened, Sample.watching.state) ∧
      Sample.opened.isPayAsYouGo = true ∧
      (∃ s', paidTier Sample.wrappingCrypto Sample.config Sample.silent Sample.wrappingAuth false
        Sample.watching.state =
          .ok { contractId := 2, nonce := 922337203685477581, isOpen := false } s') ∧
      ¬WithinDeposit Sample.wrappingCrypto Sample.config Sample.silent Sample.wrappingAuth false
        Sample.opened Sample.watching.state ∧
      ∃ s', paidTier Sample.crypto Sample.config Sample.silent Sample.clientAuth false
        Sample.dearState = .error .panic s' := by
  have hserved : ∃ s', paidTier Sample.wrappingCrypto Sample.config Sample.silent
      Sample.wrappingAuth false Sample.watching.state =
        .ok { contractId := 2, nonce := 922337203685477581, isOpen := false } s' := by
    refine (paidTier_ok_iff Sample.opened_get).mpr ⟨⟨⟨by decide +kernel, ?_, rfl⟩, .inr ⟨?_, ?_, ?_⟩⟩, rfl⟩
    · exact (covers_iff_wrappedCost (by decide)).mpr ⟨100, 10, rfl, rfl, by decide, by decide +kernel⟩
    · exact ⟨Arkeo.Sample.client.key, by decide +kernel, by decide +kernel⟩
    · intro claim hclaim
      cases hclaim
    · exact ⟨int64?_some.mpr (by decide), int64?_some.mpr (by decide)⟩
  refine ⟨Sample.opened_get, by decide, hserved, ?_, ?_⟩
  · obtain ⟨s', hs⟩ := hserved
    rintro ⟨-, hok⟩
    obtain ⟨d, rate, hd, hr, hle⟩ := hok _ s' hs
    obtain rfl := Option.some.inj hd
    obtain rfl := Option.some.inj hr
    exact absurd hle (by decide)
  · refine (paidTier_panic_iff (by decide) Sample.dear_get).mpr (.inl ⟨by decide +kernel, ⟨100, rfl⟩, ?_⟩)
    exact mt int64?_some.mp (by decide)

end Arkeo.Sentinel
