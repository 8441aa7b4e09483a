import Arkeo.Sentinel.Provenance

/-! # Which requests are served as paid

`auth_paid_iff` says exactly which requests `Proxy.auth` hands to the backend as
paid.  There are two ways: one for credentials that can be read, through the tests
of `auth` and of `paidTier` (`Eligible`, `Servable`), and one for credentials that
cannot, where an open contract serves the addresses on its whitelist.

Open contracts need no signature, so the whitelist of a contract is all that
protects it.  The test for it stands beside a test of the credentials' shape, and
either is enough: a request from any address is served if its credentials look
like a claim (`stranger_served_on_open_contract`).
-/
namespace Arkeo.Sentinel
open Exec Text

variable {cr : Crypto} {cfg : Config} {hub : Hub} {s t : State} {aa : ArkAuth} {r : Request}
  {c c' : CachedContract} {limited : Bool} {charge : Charge}

/-- What `auth` tests before the paid tier, of the contract that it has found. -/
structure Eligible (cr : Crypto) (cfg : Config) (aa : ArkAuth) (c : CachedContract) (r : Request)
    (s : State) : Prop where
  current : ¬(c.id ≠ 0 ∧ c.isSubscription = true ∧ c.isExpired s.blockHeight = true)
  signed : ¬(c.isPayAsYouGo = true ∧ aa.signature.isEmpty = true)
  entitled : aa.validate cr cfg.providerPubKey = true ∨
    c.isOpenAuthorization = true ∧ isWhitelisted c r s = true
  matching : serviceMatches cfg c r = true

/-- What the paid tier tests, of the contract that it has found. -/
structure Servable (cr : Crypto) (aa : ArkAuth) (c : CachedContract) (limited : Bool) (s : State) :
    Prop where
  admits : Admits c (aa.inferSpender c) limited s
  paid : c.isOpenAuthorization = true ∨
    (aa.inferSpender c).Signed cr ∧ s.Fresh (aa.inferSpender c) ∧ c.Loggable

/-- The ways to be served as paid, with what is charged. -/
inductive Served (cr : Crypto) (cfg : Config) (hub : Hub) (r : Request) (s : State) : Charge → Prop
  /-- The credentials cannot be read. -/
  | bare (c : CachedContract) (t : State) (haa : r.fetchArkAuth cr cfg = none)
      (hget : memStoreGet hub r.fallbackId s = (some c, t)) (ho : c.isOpenAuthorization = true)
      (hw : isWhitelisted c r t = true) :
      Served cr cfg hub r s { contractId := r.fallbackId, nonce := 0, isOpen := true }
  /-- The contract is looked up by `auth` and once more by the paid tier. -/
  | tiered (aa : ArkAuth) (c c' : CachedContract) (t t' : State)
      (haa : r.fetchArkAuth cr cfg = some aa) (hfirst : contractOf hub aa s = (some c, t))
      (he : Eligible cr cfg aa c r t) (hget : memStoreGet hub aa.contractId t = (some c', t'))
      (hs : Servable cr aa c' r.limited t') :
      Served cr cfg hub r s
        { contractId := aa.contractId, nonce := aa.nonce, isOpen := c'.isOpenAuthorization }

/-- The contract that a paid request is charged to: the one found last. -/
def charged (cr : Crypto) (cfg : Config) (hub : Hub) (r : Request) (s : State) :
    Option CachedContract :=
  match r.fetchArkAuth cr cfg with
  | none => (memStoreGet hub r.fallbackId s).1
  | some aa => (memStoreGet hub aa.contractId (contractOf hub aa s).2).1

/-! ## The paid tier -/

theorem paidTier_ok_iff (hget : memStoreGet hub aa.contractId s = (some c, t)) :
    (∃ u, paidTier cr cfg hub aa limited s = .ok charge u) ↔ Servable cr aa c limited t ∧
      charge = { contractId := aa.contractId, nonce := aa.nonce, isOpen := c.isOpenAuthorization } := by
  constructor
  · rintro ⟨u, h⟩
    have ho := paidTier_outcome cr cfg hub aa limited s
    rw [h] at ho
    cases ho with
    | openly c' t' hg ha ho =>
      rw [hget] at hg
      obtain ⟨⟨⟩, rfl⟩ := Prod.mk.inj hg
      exact ⟨⟨ha, .inl ho⟩, by rw [ho]⟩
    | stored c' t' u' hg ha ho hsig hf hu _ hr =>
      rw [hget] at hg
      obtain ⟨⟨⟩, rfl⟩ := Prod.mk.inj hg
      rcases hr with ⟨hl, hr⟩ | hr
      · cases hr
        exact ⟨⟨ha, .inr ⟨hsig, hf, hl⟩⟩, by rw [ho]⟩
      · cases hr
  · rintro ⟨hs, rfl⟩
    cases ho : c.isOpenAuthorization with
    | true =>
      refine ⟨t, ?_⟩
      rw [paidTier_eq hget]
      refine bind_ok.mpr ⟨(), t, checkContract_ok.mpr ⟨hs.admits, rfl⟩, ?_⟩
      rw [if_pos ho, ArkAuth.inferSpender_contractId, ArkAuth.inferSpender_nonce]
      rfl
    | false =>
      rcases hs.paid with hopen | ⟨hsig, hf, hl⟩
      · rw [ho] at hopen
        cases hopen
      · exact ⟨_, paidTier_serves cfg hget hs.admits ho hsig hf hl⟩

theorem paidTier_not_ok (hget : memStoreGet hub aa.contractId s = (none, t)) (u : State) :
    paidTier cr cfg hub aa limited s ≠ .ok charge u := by
  intro h
  have ho := paidTier_outcome cr cfg hub aa limited s
  rw [h] at ho
  cases ho with
  | openly c' t' hg =>
    rw [hget] at hg
    cases hg
  | stored c' t' u' hg =>
    rw [hget] at hg
    cases hg

/-! ## Requests -/

theorem authPaid_iff : (authPaid cr cfg hub aa c r s).1 = .paid charge ↔
    serviceMatches cfg c r = true ∧ ∃ u, paidTier cr cfg hub aa r.limited s = .ok charge u := by
  unfold authPaid
  by_cases hm : serviceMatches cfg c r = true
  · rw [if_pos hm]
    cases hp : paidTier cr cfg hub aa r.limited s with
    | ok charge' u =>
      simp only [Response.paid.injEq, hm, true_and, EStateM.Result.ok.injEq]
      exact ⟨fun h => ⟨u, h, rfl⟩, fun ⟨_, h, _⟩ => h⟩
    | error e u =>
      cases e <;> simp
  · rw [if_neg hm]
    simp [hm]

/-- The tests as `auth` makes them. -/
theorem Eligible.tests (he : Eligible cr cfg aa c r s) :
    ¬(decide (c.id ≠ 0) && c.isSubscription && c.isExpired s.blockHeight) = true ∧
      ¬(c.isPayAsYouGo && aa.signature.isEmpty) = true ∧
      (aa.validate cr cfg.providerPubKey ||
        (c.isOpenAuthorization && isWhitelisted c r s)) = true := by
  simp only [Bool.and_eq_true, Bool.or_eq_true, decide_eq_true_eq]
  exact ⟨fun ⟨⟨h₁, h₂⟩, h₃⟩ => he.current ⟨h₁, h₂, h₃⟩, he.signed, he.entitled⟩

theorem authReadable_iff : (authReadable cr cfg hub aa r s).1 = .paid charge ↔
    ∃ c t, contractOf hub aa s = (some c, t) ∧ Eligible cr cfg aa c r t ∧
      ∃ u, paidTier cr cfg hub aa r.limited t = .ok charge u := by
  rcases hfound : contractOf hub aa s with ⟨found, t⟩
  unfold authReadable
  rw [hfound]
  simp only
  constructor
  · intro h
    split at h
    · cases h
    rename_i hcur
    split at h
    · cases h
    rename_i hsig
    split at h
    · rename_i hent
      simp only [Bool.and_eq_true, Bool.or_eq_true, decide_eq_true_eq] at hcur hsig hent
      obtain ⟨c, rfl⟩ := Option.isSome_iff_exists.mp hent.1
      obtain ⟨hm, hp⟩ := authPaid_iff.mp h
      exact ⟨c, t, rfl, ⟨fun ⟨h₁, h₂, h₃⟩ => hcur ⟨⟨h₁, h₂⟩, h₃⟩, hsig, hent.2, hm⟩, hp⟩
    · split at h
      · cases h
      · split at h <;> cases h
  · rintro ⟨c, t', heq, he, hp⟩
    obtain ⟨rfl, rfl⟩ := Prod.mk.inj heq
    obtain ⟨hcur, hsig, hent⟩ := he.tests
    simp only [Option.getD_some, Option.isSome_some, Bool.true_and]
    rw [if_neg hcur, if_neg hsig, if_pos hent]
    exact authPaid_iff.mpr ⟨he.matching, hp⟩

/-- **Who is served as paid.** -/
theorem auth_paid_iff : (auth cr cfg hub r s).1 = .paid charge ↔
    r.isOptions = false ∧ Served cr cfg hub r s charge := by
  unfold auth
  cases hopt : r.isOptions with
  | true => simp
  | false =>
    simp only [Bool.false_eq_true, if_false, true_and]
    cases haa : r.fetchArkAuth cr cfg with
    | none =>
      simp only [authUnreadable]
      constructor
      · intro h
        split at h
        · rename_i c t hget
          split at h
          · rename_i hw
            obtain ⟨hw, ho⟩ := Bool.and_eq_true_iff.mp hw
            cases h
            exact .bare c t haa hget ho hw
          · cases h
        · cases h
      · intro h
        cases h with
        | bare c t _ hget ho hw =>
          rw [hget]
          simp only [hw, ho, Bool.and_self, if_true]
        | tiered aa c c' t t' haa' => cases haa.symm.trans haa'
    | some aa =>
      rw [authReadable_iff]
      constructor
      · rintro ⟨c, t, hfirst, he, hp⟩
        rcases hget : memStoreGet hub aa.contractId t with ⟨found, t'⟩
        cases found with
        | none =>
          obtain ⟨u, hu⟩ := hp
          exact absurd hu (paidTier_not_ok hget u)
        | some c' =>
          obtain ⟨hs, rfl⟩ := (paidTier_ok_iff hget).mp hp
          exact .tiered aa c c' t t' haa hfirst he hget hs
      · intro h
        cases h with
        | bare c t haa' => cases haa.symm.trans haa'
        | tiered aa' c c' t t' haa' hfirst he hget hs =>
          obtain rfl := Option.some.inj (haa.symm.trans haa')
          exact ⟨c, t, hfirst, he, (paidTier_ok_iff hget).mpr ⟨hs, rfl⟩⟩

/-! ## The whitelist of an open contract -/

/-- The address a request comes from is on the contract's whitelist. -/
def Listed (c : CachedContract) (r : Request) (s : State) : Prop :=
  ∃ ip ∈ (configGet c.id s).whitelistIPAddresses,
    LetterCase.equalFold (before r.getRemoteAddr ':') ip = true

theorem isWhitelisted_iff : isWhitelisted c r s = true ↔ c.client ≠ "" ∧ Listed c r s := by
  unfold isWhitelisted Listed
  simp only [Bool.and_eq_true, decide_eq_true_eq, List.any_eq_true]

theorem Listed.of_configs (h : Listed c r t) (hc : t.configs = s.configs) : Listed c r s := by
  obtain ⟨ip, hip, he⟩ := h
  refine ⟨ip, ?_, he⟩
  unfold configGet at hip ⊢
  rw [← hc]
  exact hip

/-- An open contract that has a whitelist serves listed addresses only. -/
def WhitelistEnforced (cr : Crypto) (cfg : Config) (hub : Hub) (r : Request) (s : State) : Prop :=
  ∀ charge c, (auth cr cfg hub r s).1 = .paid charge → charged cr cfg hub r s = some c →
    c.isOpenAuthorization = true → (configGet c.id s).whitelistIPAddresses ≠ [] → Listed c r s

/-- **The condition.**  Credentials that can be read name an open contract with a
whitelist only from a listed address, or one of the other tests refuses them. -/
def KeptOut (cr : Crypto) (cfg : Config) (hub : Hub) (r : Request) (s : State) : Prop :=
  ∀ aa c t c' t', r.fetchArkAuth cr cfg = some aa → contractOf hub aa s = (some c, t) →
    memStoreGet hub aa.contractId t = (some c', t') → c'.isOpenAuthorization = true →
    (configGet c'.id s).whitelistIPAddresses ≠ [] →
      Listed c' r s ∨ ¬Eligible cr cfg aa c r t ∨ ¬Admits c' (aa.inferSpender c') r.limited t'

/-- What a request is charged to. -/
theorem Served.charged (h : Served cr cfg hub r s charge) : ∃ c,
    charged cr cfg hub r s = some c ∧ charge.isOpen = c.isOpenAuthorization := by
  cases h with
  | bare c t haa hget ho hw =>
    refine ⟨c, ?_, ho.symm⟩
    unfold Sentinel.charged
    rw [haa]
    simp only
    rw [hget]
  | tiered aa c c' t t' haa hfirst he hget hs =>
    refine ⟨c', ?_, rfl⟩
    unfold Sentinel.charged
    rw [haa]
    simp only
    rw [hfirst, hget]

/-- **When the whitelist is enforced.**  Of requests whose credentials cannot be read
it always is; of the others, exactly where one of the other tests stands in. -/
theorem whitelist_enforced_iff : WhitelistEnforced cr cfg hub r s ↔
    r.isOptions = true ∨ KeptOut cr cfg hub r s := by
  constructor
  · intro h
    cases hopt : r.isOptions with
    | true => exact .inl rfl
    | false =>
      refine .inr ?_
      intro aa c t c' t' haa hfirst hget ho hne
      by_cases he : Eligible cr cfg aa c r t
      · by_cases ha : Admits c' (aa.inferSpender c') r.limited t'
        · have hserved : Served cr cfg hub r s _ :=
            .tiered aa c c' t t' haa hfirst he hget ⟨ha, .inl ho⟩
          have hcharged : charged cr cfg hub r s = some c' := by
            unfold charged
            rw [haa]
            simp only
            rw [hfirst, hget]
          exact .inl (h _ c' (auth_paid_iff.mpr ⟨hopt, hserved⟩) hcharged ho hne)
        · exact .inr (.inr ha)
      · exact .inr (.inl he)
  · intro h charge c hpaid hcharged ho hne
    obtain ⟨hopt, hserved⟩ := auth_paid_iff.mp hpaid
    cases hserved with
    | bare c₀ t haa hget _ hw =>
      unfold charged at hcharged
      rw [haa] at hcharged
      simp only at hcharged
      rw [hget] at hcharged
      obtain rfl := Option.some.inj hcharged
      have hcfg := memStoreGet_configs hub r.fallbackId s
      rw [hget] at hcfg
      exact (isWhitelisted_iff.mp hw).2.of_configs hcfg
    | tiered aa c₀ c' t t' haa hfirst he hget hs =>
      unfold charged at hcharged
      rw [haa] at hcharged
      simp only at hcharged
      rw [hfirst, hget] at hcharged
      obtain rfl := Option.some.inj hcharged
      rcases h with hopt' | hkept
      · rw [hopt] at hopt'
        cases hopt'
      · rcases hkept aa c₀ t c' t' haa hfirst hget ho hne with hl | hn | hn
        · exact hl
        · exact absurd he hn
        · exact absurd hs.admits hn

namespace Sample
open Arkeo.Sample

/-- The sentinel knows the service by its name. -/
def registered : Config :=
  { config with serviceIDs := fun name => if name = service then some 10 else none }

/-- The client has an open subscription, and lets one address use it. -/
def guarded : List Action :=
  [.newBlock 1 [], .opened { opening with type := .subscription, authorization := .openAuth },
   .manage "2" clientHeader (.post (some ["10.0.0.1"]))]

/-- A request with no signature to speak of. -/
def visitor (addr : String) : Request where
  arkauth := "2:1:00"
  remoteAddr := addr
  arkservice := service

end Sample

/-- **Served from anywhere.**  The open subscription may be used from one address; a
request from another is served. -/
theorem stranger_served_on_open_contract : ∃ w c,
    Runs.run (step Sample.crypto Sample.registered Sample.silent) {} Sample.guarded = some w ∧
    charged Sample.crypto Sample.registered Sample.silent (Sample.visitor "10.0.0.2:4711") w.state =
      some c ∧
    c.isOpenAuthorization = true ∧
    (configGet c.id w.state).whitelistIPAddresses = ["10.0.0.1"] ∧
    (auth Sample.crypto Sample.registered Sample.silent (Sample.visitor "10.0.0.2:4711") w.state).1 =
      .paid { contractId := 2, nonce := 1, isOpen := true } ∧
    ¬Listed c (Sample.visitor "10.0.0.2:4711") w.state := by
  have h : ((Runs.run (step Sample.crypto Sample.registered Sample.silent) {} Sample.guarded).bind
      fun w => (charged Sample.crypto Sample.registered Sample.silent
        (Sample.visitor "10.0.0.2:4711") w.state).map fun c =>
          (c.isOpenAuthorization, (configGet c.id w.state).whitelistIPAddresses,
            (auth Sample.crypto Sample.registered Sample.silent (Sample.visitor "10.0.0.2:4711")
              w.state).1)) =
      some (true, ["10.0.0.1"], .paid { contractId := 2, nonce := 1, isOpen := true }) := by
    decide +kernel
  obtain ⟨w, hw, h₁⟩ := Option.bind_eq_some_iff.mp h
  obtain ⟨c, hc, h₂⟩ := Option.map_eq_some_iff.mp h₁
  simp only [Prod.mk.injEq] at h₂
  obtain ⟨ho, hlist, hpaid⟩ := h₂
  refine ⟨w, c, hw, hc, ho, hlist, hpaid, ?_⟩
  rintro ⟨ip, hip, he⟩
  rw [hlist] at hip
  obtain rfl := List.mem_singleton.mp hip
  revert he
  decide +kernel

end Arkeo.Sentinel
