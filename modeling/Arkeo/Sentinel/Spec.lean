import Arkeo.Sentinel.Proxy

/-! # What the paid tier does

`paidTier_outcome` says once what `paidTier` can do: it refuses the request, and
only the look-up of the contract has left a trace; it serves an open contract; or
it accepts a signature and a nonce, and the claim is stored, whether the request
is then served or aborted.
-/
namespace Arkeo.Sentinel
open Exec Text

variable {cr : Crypto} {cfg : Config} {hub : Hub} {s s' : State} {aa : ArkAuth} {limited : Bool}

/-! ## The tests -/

/-- The deposit covers the calls up to a nonce. -/
def CachedContract.Covers (c : CachedContract) (nonce : Int64) : Prop :=
  c.isPayAsYouGo = true → ∃ d rate, c.deposit = some d ∧ int64? c.rate.2 = some rate ∧
    (nonce * rate).toInt ≤ d

/-- What `checkContract` tests. -/
structure Admits (c : CachedContract) (aa : ArkAuth) (limited : Bool) (s : State) : Prop where
  unexpired : c.isExpired s.blockHeight = false
  covers : c.Covers aa.nonce
  unlimited : limited = false

theorem checkDeposit_ok {c : CachedContract} {nonce : Int64} {u : Unit} :
    checkDeposit c nonce s = .ok u s' ↔ c.Covers nonce ∧ s = s' := by
  unfold checkDeposit CachedContract.Covers
  by_cases hp : c.isPayAsYouGo = true
  · rw [if_pos hp]
    simp only [ofOption_bind_ok, failIf_ok, decide_eq_false_iff_not, not_lt]
    constructor
    · rintro ⟨d, hd, r, hr, hle, rfl⟩
      exact ⟨fun _ => ⟨d, r, hd, hr, hle⟩, rfl⟩
    · rintro ⟨h, rfl⟩
      obtain ⟨d, r, hd, hr, hle⟩ := h hp
      exact ⟨d, hd, r, hr, hle, rfl⟩
  · rw [if_neg hp]
    simp [hp]

theorem checkContract_ok {c : CachedContract} {u : Unit} :
    checkContract c aa limited s = .ok u s' ↔ Admits c aa limited s ∧ s = s' := by
  unfold checkContract
  rw [reading_bind, failIf_bind_ok, bind_ok]
  constructor
  · rintro ⟨he, _, _, hd, hl⟩
    obtain ⟨hc, rfl⟩ := checkDeposit_ok.mp hd
    obtain ⟨hlim, rfl⟩ := failIf_ok.mp hl
    exact ⟨⟨he, hc, hlim⟩, rfl⟩
  · rintro ⟨h, rfl⟩
    exact ⟨h.unexpired, (), s, checkDeposit_ok.mpr ⟨h.covers, rfl⟩,
      failIf_ok.mpr ⟨h.unlimited, rfl⟩⟩

theorem checkContract_readOnly (c : CachedContract) (aa : ArkAuth) (limited : Bool) :
    ReadOnly (checkContract c aa limited) := by
  refine (readOnly_reading _).bind fun height => (readOnly_failIf _ _).bind fun _ => ?_
  refine ReadOnly.bind ?_ fun _ => readOnly_failIf _ _
  unfold checkDeposit
  split
  · exact (readOnly_ofOption _ _).bind fun _ => (readOnly_ofOption _ _).bind fun _ =>
      readOnly_failIf _ _
  · exact readOnly_pure ()

/-- The signature of a request verifies under the key it names. -/
def ArkAuth.Signed (cr : Crypto) (aa : ArkAuth) : Prop :=
  ∃ pk, cr.getPubKeyFromBech32 aa.spender = some pk ∧
    verifyRequest cr pk aa.contractId aa.nonce aa.signature = true

theorem checkSignature_ok {u : Unit} :
    checkSignature cr aa s = .ok u s' ↔ aa.Signed cr ∧ s = s' := by
  unfold checkSignature ArkAuth.Signed
  simp only [ofOption_bind_ok, failIf_ok, Bool.not_eq_false']
  constructor
  · rintro ⟨pk, hpk, hv, rfl⟩
    exact ⟨⟨pk, hpk, hv⟩, rfl⟩
  · rintro ⟨⟨pk, hpk, hv⟩, rfl⟩
    exact ⟨pk, hpk, hv, rfl⟩

theorem checkSignature_readOnly (cr : Crypto) (aa : ArkAuth) : ReadOnly (checkSignature cr aa) :=
  (readOnly_ofOption _ _).bind fun _ => readOnly_failIf _ _

/-! ## The claim -/

/-- The nonce exceeds the stored one. -/
def State.Fresh (s : State) (aa : ArkAuth) : Prop :=
  ∀ claim, s.claims.lookup aa.contractId = some claim → claim.nonce < aa.nonce

/-- The state after the claim of a request has been stored. -/
def State.withClaim (cfg : Config) (aa : ArkAuth) (s : State) : State :=
  claimStoreSet (claimFor cfg aa (s.claims.lookup aa.contractId)) s

theorem storeClaim_of_fresh (cfg : Config) (hf : s.Fresh aa) :
    storeClaim cfg aa s = .ok () (s.withClaim cfg aa) := by
  unfold storeClaim State.withClaim
  rw [reading_bind]
  cases hl : s.claims.lookup aa.contractId with
  | none => rfl
  | some claim =>
    exact failIf_bind_ok.mpr ⟨decide_eq_false (Int64.not_le.mpr (hf claim hl)), rfl⟩

theorem storeClaim_of_stale (cfg : Config) {claim : Claim}
    (hl : s.claims.lookup aa.contractId = some claim) (hn : aa.nonce ≤ claim.nonce) :
    storeClaim cfg aa s = .error (.err (.badNonce aa.nonce claim.nonce)) s := by
  unfold storeClaim
  rw [reading_bind, hl]
  exact bind_error.mpr (.inl (failIf_error.mpr ⟨decide_eq_true hn, rfl, rfl⟩))

theorem State.fresh_or_stale (s : State) (aa : ArkAuth) :
    s.Fresh aa ∨ ∃ claim, s.claims.lookup aa.contractId = some claim ∧ aa.nonce ≤ claim.nonce := by
  by_cases hf : s.Fresh aa
  · exact .inl hf
  · unfold Fresh at hf
    push Not at hf
    obtain ⟨claim, hl, hn⟩ := hf
    exact .inr ⟨claim, hl, Int64.not_lt.mp hn⟩

/-- The amounts whose usage is logged are there and fit. -/
def CachedContract.Loggable (c : CachedContract) : Prop :=
  (∃ n, int64? c.rate.2 = some n) ∧ ∃ n, int64? c.deposit = some n

theorem logUsage_of_loggable {c : CachedContract} (hl : c.Loggable) (nonce : Int64) (s : State) :
    logUsage c nonce s = .ok () (memStorePut { c with nonce := nonce } s) := by
  obtain ⟨⟨r, hr⟩, d, hd⟩ := hl
  simp only [logUsage, hr, hd]
  rfl

theorem logUsage_cases (c : CachedContract) (nonce : Int64) (s : State) :
    c.Loggable ∨ logUsage c nonce s = .error .panic (memStorePut { c with nonce := nonce } s) := by
  unfold CachedContract.Loggable
  cases hr : int64? c.rate.2 with
  | none => exact .inr (by simp only [logUsage, hr]; rfl)
  | some r =>
    cases hd : int64? c.deposit with
    | none => exact .inr (by simp only [logUsage, hr, hd]; rfl)
    | some d => exact .inl ⟨⟨r, rfl⟩, d, rfl⟩

/-! ## The paid tier -/

/-- Everything `paidTier` can do with a request. -/
inductive TierOutcome (cr : Crypto) (cfg : Config) (hub : Hub) (aa : ArkAuth) (limited : Bool)
    (s : State) : EStateM.Result (Fault TierError) State Charge → Prop
  | refused (e : Fault TierError) :
      TierOutcome cr cfg hub aa limited s (.error e (memStoreGet hub aa.contractId s).2)
  /-- An open contract is served without a claim. -/
  | openly (c : CachedContract) (t : State) (hget : memStoreGet hub aa.contractId s = (some c, t))
      (ha : Admits c (aa.inferSpender c) limited t) (ho : c.isOpenAuthorization = true) :
      TierOutcome cr cfg hub aa limited s
        (.ok { contractId := aa.contractId, nonce := aa.nonce, isOpen := true } t)
  /-- A claim is stored; the request is served unless the usage cannot be logged. -/
  | stored (c : CachedContract) (t u : State)
      (hget : memStoreGet hub aa.contractId s = (some c, t))
      (ha : Admits c (aa.inferSpender c) limited t) (ho : c.isOpenAuthorization = false)
      (hsig : (aa.inferSpender c).Signed cr) (hf : t.Fresh (aa.inferSpender c))
      (hu : u = memStorePut { c with nonce := aa.nonce } (t.withClaim cfg (aa.inferSpender c)))
      (r : EStateM.Result (Fault TierError) State Charge)
      (hr : c.Loggable ∧
          r = .ok { contractId := aa.contractId, nonce := aa.nonce, isOpen := false } u ∨
        r = .error .panic u) : TierOutcome cr cfg hub aa limited s r

@[simp] theorem ArkAuth.inferSpender_contractId (c : CachedContract) :
    (aa.inferSpender c).contractId = aa.contractId := by
  unfold inferSpender
  split <;> rfl

@[simp] theorem ArkAuth.inferSpender_nonce (c : CachedContract) :
    (aa.inferSpender c).nonce = aa.nonce := by
  unfold inferSpender
  split <;> rfl

@[simp] theorem ArkAuth.inferSpender_signature (c : CachedContract) :
    (aa.inferSpender c).signature = aa.signature := by
  unfold inferSpender
  split <;> rfl

theorem payByClaim_of_fresh (cfg : Config) {c : CachedContract} (hs : aa.Signed cr)
    (hf : s.Fresh aa) (hl : c.Loggable) : payByClaim cr cfg c aa s =
      .ok { contractId := aa.contractId, nonce := aa.nonce, isOpen := false }
        (memStorePut { c with nonce := aa.nonce } (s.withClaim cfg aa)) := by
  refine bind_ok.mpr ⟨(), s, checkSignature_ok.mpr ⟨hs, rfl⟩, ?_⟩
  refine bind_ok.mpr ⟨(), _, storeClaim_of_fresh cfg hf, ?_⟩
  exact bind_ok.mpr ⟨(), _, logUsage_of_loggable hl aa.nonce _, rfl⟩

/-- A signature and a fresh nonce are stored as a claim. -/
theorem payByClaim_cases (cr : Crypto) (cfg : Config) (c : CachedContract) (aa : ArkAuth)
    (s : State) :
    (∃ e, payByClaim cr cfg c aa s = .error e s) ∨
      (aa.Signed cr ∧ s.Fresh aa ∧
        (c.Loggable ∧ payByClaim cr cfg c aa s =
            .ok { contractId := aa.contractId, nonce := aa.nonce, isOpen := false }
              (memStorePut { c with nonce := aa.nonce } (s.withClaim cfg aa)) ∨
          payByClaim cr cfg c aa s =
            .error .panic (memStorePut { c with nonce := aa.nonce } (s.withClaim cfg aa)))) := by
  rcases (checkSignature_readOnly cr aa).bind_cases _ s with ⟨hs, he⟩ | ⟨e, he⟩
  · replace hs := (checkSignature_ok.mp hs).1
    rcases s.fresh_or_stale aa with hf | ⟨claim, hl, hn⟩
    · refine .inr ⟨hs, hf, ?_⟩
      rcases logUsage_cases c aa.nonce (s.withClaim cfg aa) with hl | hu
      · exact .inl ⟨hl, payByClaim_of_fresh cfg hs hf hl⟩
      · refine .inr (he.trans ?_)
        exact bind_error.mpr
          (.inr ⟨(), _, storeClaim_of_fresh cfg hf, bind_error.mpr (.inl hu)⟩)
    · exact .inl ⟨_, he.trans (bind_error.mpr (.inl (storeClaim_of_stale cfg hl hn)))⟩
  · exact .inl ⟨e, he⟩

theorem paidTier_eq {c : CachedContract} {t : State}
    (hget : memStoreGet hub aa.contractId s = (some c, t)) :
    paidTier cr cfg hub aa limited s =
      chargeContract cr cfg c (aa.inferSpender c) limited t := by
  change (ofOption (memStoreGet hub aa.contractId s).1 _ >>= _)
    (memStoreGet hub aa.contractId s).2 = _
  rw [hget]
  rfl

/-- **The paid tier, inverted.** -/
theorem paidTier_outcome (cr : Crypto) (cfg : Config) (hub : Hub) (aa : ArkAuth) (limited : Bool)
    (s : State) : TierOutcome cr cfg hub aa limited s (paidTier cr cfg hub aa limited s) := by
  rcases hget : memStoreGet hub aa.contractId s with ⟨found, t⟩
  have hrefused : ∀ e, paidTier cr cfg hub aa limited s = .error e t →
      TierOutcome cr cfg hub aa limited s (paidTier cr cfg hub aa limited s) := by
    intro e he
    have ht : (memStoreGet hub aa.contractId s).2 = t := by rw [hget]
    rw [he, ← ht]
    exact .refused e
  cases found with
  | none =>
    refine hrefused (.err .internalServerError) ?_
    change (ofOption (memStoreGet hub aa.contractId s).1 _ >>= _)
      (memStoreGet hub aa.contractId s).2 = _
    rw [hget]
    rfl
  | some c =>
    have hp : paidTier cr cfg hub aa limited s = _ := paidTier_eq hget
    rcases (checkContract_readOnly c (aa.inferSpender c) limited).bind_cases _ t with
      ⟨hc, he⟩ | ⟨e, he⟩
    · have ha := (checkContract_ok.mp hc).1
      replace hp := hp.trans he
      cases ho : c.isOpenAuthorization with
      | true =>
        rw [if_pos ho, ArkAuth.inferSpender_contractId, ArkAuth.inferSpender_nonce] at hp
        rw [hp]
        exact .openly c t hget ha ho
      | false =>
        rw [if_neg (by rw [ho]; exact Bool.false_ne_true)] at hp
        rcases payByClaim_cases cr cfg c (aa.inferSpender c) t with ⟨e, hpay⟩ | ⟨hs, hf, hpay⟩
        · exact hrefused e (hp.trans hpay)
        · rw [ArkAuth.inferSpender_contractId, ArkAuth.inferSpender_nonce] at hpay
          rw [hp]
          exact .stored c t _ hget ha ho hs hf rfl _ hpay
    · exact hrefused e (hp.trans he)

/-- A request that passes the tests is served. -/
theorem paidTier_serves (cfg : Config) {c : CachedContract} {t : State}
    (hget : memStoreGet hub aa.contractId s = (some c, t))
    (ha : Admits c (aa.inferSpender c) limited t) (ho : c.isOpenAuthorization = false)
    (hs : (aa.inferSpender c).Signed cr) (hf : t.Fresh (aa.inferSpender c)) (hl : c.Loggable) :
    paidTier cr cfg hub aa limited s =
      .ok { contractId := aa.contractId, nonce := aa.nonce, isOpen := false }
        (memStorePut { c with nonce := aa.nonce } (t.withClaim cfg (aa.inferSpender c))) := by
  have hpay := payByClaim_of_fresh cfg hs hf hl
  rw [ArkAuth.inferSpender_contractId, ArkAuth.inferSpender_nonce] at hpay
  rw [paidTier_eq hget]
  refine bind_ok.mpr ⟨(), t, checkContract_ok.mpr ⟨ha, rfl⟩, ?_⟩
  rw [if_neg (by rw [ho]; exact Bool.false_ne_true)]
  exact hpay

/-! ## Requests -/

/-- The contract a request looks up. -/
def Request.key (cr : Crypto) (cfg : Config) (r : Request) : ℕ :=
  match r.fetchArkAuth cr cfg with
  | none => r.fallbackId
  | some aa => aa.contractId

/-- Everything `auth` can do with a request, as far as payment is concerned. -/
inductive AuthOutcome (cr : Crypto) (cfg : Config) (hub : Hub) (r : Request) (s : State) :
    Response × State → Prop
  | idle (resp : Response) (h : ∀ charge, resp ≠ .paid charge) :
      AuthOutcome cr cfg hub r s (resp, s)
  | looked (resp : Response) (h : ∀ charge, resp ≠ .paid charge) :
      AuthOutcome cr cfg hub r s (resp, (memStoreGet hub (r.key cr cfg) s).2)
  /-- An open contract serves a whitelisted address without credentials. -/
  | whitelisted (c : CachedContract) (t : State)
      (hget : memStoreGet hub (r.key cr cfg) s = (some c, t)) (hw : isWhitelisted c r t = true) :
      AuthOutcome cr cfg hub r s
        (.paid { contractId := r.key cr cfg, nonce := 0, isOpen := true }, t)
  | tiered (aa : ArkAuth) (hk : r.key cr cfg = aa.contractId) (t : State)
      (ht : t = s ∨ t = (memStoreGet hub aa.contractId s).2) (resp : Response)
      (hresp : ∀ charge, resp = .paid charge →
        ∃ u, paidTier cr cfg hub aa r.limited t = .ok charge u) :
      AuthOutcome cr cfg hub r s (resp, finalStore (paidTier cr cfg hub aa r.limited t))

theorem authPaid_outcome {r : Request} {c : CachedContract} {t : State}
    (hk : r.key cr cfg = aa.contractId) (ht : t = s ∨ t = (memStoreGet hub aa.contractId s).2) :
    AuthOutcome cr cfg hub r s (authPaid cr cfg hub aa c r t) := by
  unfold authPaid
  split
  · cases hp : paidTier cr cfg hub aa r.limited t with
    | ok charge u =>
      have hu : u = finalStore (paidTier cr cfg hub aa r.limited t) := by rw [hp]; rfl
      simp only [hu]
      refine .tiered aa hk t ht _ ?_
      rintro _ ⟨⟩
      exact ⟨u, hp⟩
    | error e u =>
      have hu : u = finalStore (paidTier cr cfg hub aa r.limited t) := by rw [hp]; rfl
      cases e with
      | err e =>
        simp only [hu]
        exact .tiered aa hk t ht _ nofun
      | panic =>
        simp only [hu]
        exact .tiered aa hk t ht _ nofun
  · rcases ht with rfl | rfl
    · exact .idle _ nofun
    · rw [← hk]
      exact .looked _ nofun

theorem authReadable_outcome {r : Request} (hk : r.key cr cfg = aa.contractId) :
    AuthOutcome cr cfg hub r s (authReadable cr cfg hub aa r s) := by
  have hfound : (contractOf hub aa s).2 = s ∨
      (contractOf hub aa s).2 = (memStoreGet hub aa.contractId s).2 := by
    unfold contractOf
    split
    · exact .inr rfl
    · exact .inl rfl
  -- a request that is not charged leaves the state of the look-up
  have hnot : ∀ resp : Response, (∀ charge, resp ≠ .paid charge) →
      AuthOutcome cr cfg hub r s (resp, (contractOf hub aa s).2) := by
    intro resp hresp
    rcases hfound with h | h
    · rw [h]
      exact .idle resp hresp
    · rw [h, ← hk]
      exact .looked resp hresp
  unfold authReadable
  split
  rename_i found t hf
  have ht : (contractOf hub aa s).2 = t := by rw [hf]
  rw [ht] at hfound hnot
  simp only
  split
  · exact hnot _ nofun
  split
  · exact hnot _ nofun
  split
  · exact authPaid_outcome hk hfound
  split
  · exact hnot _ nofun
  split
  · exact hnot _ nofun
  · exact hnot _ nofun

/-- **A request, inverted.** -/
theorem auth_outcome (cr : Crypto) (cfg : Config) (hub : Hub) (r : Request) (s : State) :
    AuthOutcome cr cfg hub r s (auth cr cfg hub r s) := by
  unfold auth
  split
  · exact .idle _ nofun
  cases haa : r.fetchArkAuth cr cfg with
  | some aa =>
    refine authReadable_outcome ?_
    unfold Request.key
    rw [haa]
  | none =>
    have hk : r.key cr cfg = r.fallbackId := by
      unfold Request.key
      rw [haa]
    simp only [authUnreadable]
    rw [← hk]
    rcases hget : memStoreGet hub (r.key cr cfg) s with ⟨found, t⟩
    have ht : (memStoreGet hub (r.key cr cfg) s).2 = t := by rw [hget]
    cases found with
    | none =>
      rw [← ht]
      exact .looked _ nofun
    | some c =>
      simp only
      split
      · rename_i h
        exact .whitelisted c t hget (Bool.and_eq_true_iff.mp h).1
      · rw [← ht]
        exact .looked _ nofun

end Arkeo.Sentinel
