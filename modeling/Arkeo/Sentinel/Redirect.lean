import Arkeo.Sentinel.Gate
import Mathlib.Logic.Function.Basic

/-! # The gate to the backends

A request that `auth` has let through goes to the backend of the service it names.
The name is looked up twice: by `auth`, in lower case, among the ids of the
registry, where a name that is missing is let through; and by
`handleRequestAndRedirect`, as it is spelled, among the backends, which have the
names of the registry.

The gate should see to it that a paid request finds an unexpired contract of the
service it goes to and takes a token of the contract's limiter.  It fails to in
three cases, and in no others (`paid_gate_iff`): the credentials cannot be read, the
service has no lower-case name, or the contract changed between its two look-ups.
-/
namespace Arkeo.Sentinel
open Exec Text

variable {cr : Crypto} {cfg : Config} {hub : Hub} {s t : State} {aa : ArkAuth} {r : Request}
  {c c' : CachedContract} {charge : Charge} {name uri : String} {id id' : ℤ}

/-! ## The registry -/

/-- A service in the hub's answer. -/
structure RegistryEntry where
  serviceId : ℤ
  name : String
  deriving DecidableEq, Repr

/-- The static list, `common.ServiceLookup`. -/
def staticRegistry (name : String) : Option ℤ :=
  (serviceNames.findIdx? fun n => n = name).map Int.ofNat

/-- The registry of the hub's answer; a later entry of the same name wins. -/
def fetchedRegistry (services : List RegistryEntry) : String → Option ℤ :=
  services.foldl (fun registry svc => Function.update registry (toLower svc.name) (some svc.serviceId))
    fun _ => none

/-- `loadServiceRegistry`: the services the hub lists, `none` when it gives no answer
that decodes; the static list if there are none. -/
def loadServiceRegistry (payload : Option (List RegistryEntry)) : String → Option ℤ :=
  match payload with
  | some (svc :: services) => fetchedRegistry (svc :: services)
  | _ => staticRegistry

/-- A sentinel with the registry it has loaded. -/
def Config.withRegistry (cfg : Config) (payload : Option (List RegistryEntry)) : Config :=
  { cfg with serviceIDs := loadServiceRegistry payload }

/-! ## The backends -/

/-- A service of the provider's configuration file. -/
structure ServiceConfig where
  name : String
  rpcUrl : String
  rpcUser : String := ""
  rpcPass : String := ""
  deriving DecidableEq, Repr

/-- The URL of a backend, with the user and the password if there are both. -/
def ServiceConfig.fullURL (svc : ServiceConfig) : String :=
  let secure := svc.rpcUrl.toList.take 8 = "https://".toList
  let scheme := if secure then "https://" else "http://"
  let rest :=
    if svc.rpcUrl.toList.take scheme.length = scheme.toList then
      String.ofList (svc.rpcUrl.toList.drop scheme.length)
    else svc.rpcUrl
  if svc.rpcUser ≠ "" ∧ svc.rpcPass ≠ "" then
    scheme ++ svc.rpcUser ++ ":" ++ svc.rpcPass ++ "@" ++ rest
  else svc.rpcUrl

/-- The environment variable of a service. -/
def envKey (name : String) : String :=
  toUpper (String.ofList (name.toList.map fun ch => if ch = '-' then '_' else ch))

/-- `loadProxies`: an entry for each service of the registry, with the URL of the
configuration file, else that of the environment, else nil. -/
def loadProxies (services : List ServiceConfig) (lookupEnv : String → Option String)
    (serviceIDs : String → Option ℤ) (name : String) : Option (Option String) :=
  (serviceIDs name).map fun _ =>
    match services.reverse.find? fun svc => svc.name = name with
    | some svc => some svc.fullURL
    | none => lookupEnv (envKey name)

/-- `handleRequestAndRedirect`: the service that is selected and the URL of its
backend; `none` where the request is answered with an error. -/
def handleRequestAndRedirect (proxies : String → Option (Option String)) (r : Request) :
    Option (String × String) :=
  (proxies r.serviceName).join.map fun uri => (r.serviceName, uri)

/-! ## The limiter -/

/-- A call of `isRateLimited`, with a window of 60 seconds. -/
structure RateCheck where
  contractId : ℕ
  addr : String
  limitTokens : Int64
  deriving DecidableEq, Repr

/-- The deposit covers the calls up to a nonce. -/
def CachedContract.covers (c : CachedContract) (nonce : Int64) : Bool :=
  !c.isPayAsYouGo ||
    match c.deposit, int64? c.rate.2 with
    | some deposit, some rate => (nonce * rate).toInt ≤ deposit
    | _, _ => false

/-- The call that the paid tier makes, after the tests of expiry and deposit. -/
def tierRateCheck (c : CachedContract) (nonce : Int64) (addr : String) (height : Int64) :
    Option RateCheck :=
  if c.isExpired height then none
  else if c.covers nonce then
    some { contractId := c.id, addr := addr, limitTokens := c.queriesPerMinute }
  else none

/-- The call of the contract's limiter that `auth` makes for a request, if it makes
one. -/
def rateCheck (cr : Crypto) (cfg : Config) (hub : Hub) (r : Request) (s : State) :
    Option RateCheck :=
  if r.isOptions then none
  else (r.fetchArkAuth cr cfg).bind fun aa =>
    match contractOf hub aa s with
    | (found, t) =>
        let c := found.getD {}
        if c.id ≠ 0 && c.isSubscription && c.isExpired t.blockHeight then none
        else if c.isPayAsYouGo && aa.signature.isEmpty then none
        else if found.isSome && (aa.validate cr cfg.providerPubKey ||
            (c.isOpenAuthorization && isWhitelisted c r t)) then
          if serviceMatches cfg c r then
            (memStoreGet hub aa.contractId t).1.bind fun c =>
              tierRateCheck c aa.nonce r.getRemoteAddr t.blockHeight
          else none
        else none

theorem CachedContract.covers_iff {nonce : Int64} : c.covers nonce = true ↔ c.Covers nonce := by
  unfold covers Covers
  rw [Bool.or_eq_true, Bool.not_eq_true']
  constructor
  · rintro (hp | hcov) hpay
    · rw [hp] at hpay
      cases hpay
    · split at hcov
      · rename_i d rate hd hr
        exact ⟨d, rate, hd, hr, of_decide_eq_true hcov⟩
      · cases hcov
  · intro h
    cases hp : c.isPayAsYouGo with
    | false => exact .inl rfl
    | true =>
      obtain ⟨d, rate, hd, hr, hle⟩ := h hp
      refine .inr ?_
      rw [hd, hr]
      exact decide_eq_true hle

/-- A request that passes the tests takes a token of the contract's limiter. -/
theorem rateCheck_of_tiered {t' : State} (hopt : r.isOptions = false)
    (haa : r.fetchArkAuth cr cfg = some aa) (hfirst : contractOf hub aa s = (some c, t))
    (he : Eligible cr cfg aa c r t) (hget : memStoreGet hub aa.contractId t = (some c', t'))
    (hs : Servable cr aa c' r.limited t') : rateCheck cr cfg hub r s =
      some { contractId := c'.id, addr := r.getRemoteAddr, limitTokens := c'.queriesPerMinute } := by
  have hheight : t'.blockHeight = t.blockHeight := by
    have := memStoreGet_blockHeight hub aa.contractId t
    rw [hget] at this
    exact this
  obtain ⟨hcur, hsig, hent⟩ := he.tests
  have hexp : ¬c'.isExpired t.blockHeight = true := by
    rw [← hheight, hs.admits.unexpired]
    exact Bool.false_ne_true
  have hcov : c'.covers aa.nonce = true := by
    rw [CachedContract.covers_iff]
    have := hs.admits.covers
    rw [ArkAuth.inferSpender_nonce] at this
    exact this
  unfold rateCheck
  rw [if_neg (by rw [hopt]; exact Bool.false_ne_true), haa]
  simp only [Option.bind_some, hfirst, Option.getD_some, Option.isSome_some, Bool.true_and]
  rw [if_neg hcur, if_neg hsig, if_pos hent, if_pos he.matching, hget]
  simp only [Option.bind_some, tierRateCheck]
  rw [if_neg hexp, if_pos hcov]

theorem rateCheck_of_bare (hub : Hub) (s : State) (haa : r.fetchArkAuth cr cfg = none) :
    rateCheck cr cfg hub r s = none := by
  unfold rateCheck
  rw [haa]
  split <;> rfl

/-- **The limiter has its say** in the paid requests for which it is asked, and in
no others. -/
theorem limiter_asked_iff (hpaid : (auth cr cfg hub r s).1 = .paid charge) :
    rateCheck cr cfg hub r s = none ↔
      (auth cr cfg hub { r with limited := true } s).1 = .paid charge := by
  obtain ⟨hopt, hserved⟩ := auth_paid_iff.mp hpaid
  rw [auth_paid_iff]
  cases hserved with
  | bare c t haa hget ho hw =>
    exact iff_of_true (rateCheck_of_bare hub s haa) ⟨hopt, .bare c t haa hget ho hw⟩
  | tiered aa c c' t t' haa hfirst he hget hs =>
    refine iff_of_false ?_ ?_
    · rw [rateCheck_of_tiered hopt haa hfirst he hget hs]
      nofun
    · rintro ⟨-, hlimited⟩
      generalize hch : ({ contractId := aa.contractId, nonce := aa.nonce
                          isOpen := c'.isOpenAuthorization } : Charge) = charge at hlimited
      cases hlimited with
      | bare c₀ t₀ haa' => cases haa.symm.trans haa'
      | tiered _ _ _ _ _ _ _ _ _ hs' => cases hs'.admits.unlimited

/-! ## Names in lower case -/

theorem fetchedRegistry_lower {services : List RegistryEntry}
    (h : fetchedRegistry services name = some id) : toLower name = name := by
  have hfold : ∀ (services : List RegistryEntry) (registry : String → Option ℤ),
      (∀ n i, registry n = some i → toLower n = n) →
      ∀ n i, services.foldl (fun registry svc =>
        Function.update registry (toLower svc.name) (some svc.serviceId)) registry n = some i →
          toLower n = n := by
    intro services
    induction services with
    | nil => exact fun registry hreg => hreg
    | cons svc services ih =>
      intro registry hreg
      refine ih _ ?_
      intro n i hn
      by_cases he : n = toLower svc.name
      · rw [he, toLower_toLower]
      · exact hreg n i ((Function.update_of_ne he _ _).symm.trans hn)
  exact hfold services (fun _ => none) (fun _ _ hn => by cases hn) name id h

theorem staticRegistry_mem (h : staticRegistry name = some id) : name ∈ serviceNames := by
  obtain ⟨i, hi, -⟩ := Option.map_eq_some_iff.mp h
  obtain ⟨hlt, hname, -⟩ := List.findIdx?_eq_some_iff_getElem.mp hi
  rw [← of_decide_eq_true hname]
  exact List.getElem_mem hlt

theorem staticRegistry_lower (h : staticRegistry name = some id)
    (h' : staticRegistry (toLower name) = some id') : toLower name = name := by
  rcases serviceNames_lower name (staticRegistry_mem h) with hl | hc
  · exact toLower_of_bytes hl
  · exact absurd (staticRegistry_mem h') (capitalised_unlisted name hc)

/-- The registry gives a name and its lower-case form the same id, if both are in it. -/
theorem loadServiceRegistry_lower {payload : Option (List RegistryEntry)}
    (h : loadServiceRegistry payload name = some id)
    (h' : loadServiceRegistry payload (toLower name) = some id') : id' = id := by
  have hlower : toLower name = name := by
    rcases payload with _ | _ | ⟨svc, services⟩
    · exact staticRegistry_lower h h'
    · exact staticRegistry_lower h h'
    · exact fetchedRegistry_lower h
  rw [hlower, h] at h'
  exact (Option.some.inj h').symm

/-! ## The gate -/

theorem selected_registered {services : List ServiceConfig} {lookupEnv : String → Option String}
    {serviceIDs : String → Option ℤ}
    (h : handleRequestAndRedirect (loadProxies services lookupEnv serviceIDs) r = some (name, uri)) :
    name = r.serviceName ∧ ∃ id, serviceIDs name = some id := by
  obtain ⟨uri', hjoin, heq⟩ := Option.map_eq_some_iff.mp h
  obtain ⟨rfl, -⟩ := Prod.mk.inj heq
  refine ⟨rfl, ?_⟩
  obtain ⟨id, hid, -⟩ := Option.map_eq_some_iff.mp (Option.join_eq_some_iff.mp hjoin)
  exact ⟨id, hid⟩

/-- **What the gate is for.**  A paid request that goes to the backend of a service is
charged to a contract that is not expired, is for that service, and has given a token
of its limiter. -/
def PaidGate (cr : Crypto) (cfg : Config) (hub : Hub) (proxies : String → Option (Option String))
    (r : Request) (s : State) : Prop :=
  ∀ charge name uri, (auth cr cfg hub r s).1 = .paid charge →
    handleRequestAndRedirect proxies r = some (name, uri) →
    ∃ c id, charged cr cfg hub r s = some c ∧ cfg.serviceIDs name = some id ∧
      c.isExpired s.blockHeight = false ∧ c.service = id ∧ r.limited = false ∧
      rateCheck cr cfg hub r s =
        some { contractId := c.id, addr := r.getRemoteAddr, limitTokens := c.queriesPerMinute }

/-- A request passes the tests on the contracts that its two look-ups find. -/
structure Passes (cr : Crypto) (cfg : Config) (hub : Hub) (r : Request) (s : State)
    (aa : ArkAuth) (c c' : CachedContract) : Prop where
  readable : r.fetchArkAuth cr cfg = some aa
  first : (contractOf hub aa s).1 = some c
  eligible : Eligible cr cfg aa c r (contractOf hub aa s).2
  second : (memStoreGet hub aa.contractId (contractOf hub aa s).2).1 = some c'
  servable : Servable cr aa c' r.limited (memStoreGet hub aa.contractId (contractOf hub aa s).2).2

/-- **The condition** for a request to the service. -/
structure GateKept (cr : Crypto) (cfg : Config) (hub : Hub) (r : Request) (s : State)
    (name : String) : Prop where
  /-- Credentials that cannot be read name no open contract that lists the address. -/
  readable : r.fetchArkAuth cr cfg = none → ∀ c, (memStoreGet hub r.fallbackId s).1 = some c →
    ¬(c.isOpenAuthorization = true ∧ isWhitelisted c r (memStoreGet hub r.fallbackId s).2 = true)
  /-- Where the registry does not have the name in lower case, the contract happens to
  be for the service. -/
  spelled : ∀ aa c c', Passes cr cfg hub r s aa c c' → cfg.serviceIDs (toLower name) = none →
    cfg.serviceIDs name = some c'.service
  /-- Where it has, the two look-ups find contracts for one service. -/
  agreed : ∀ aa c c', Passes cr cfg hub r s aa c c' → cfg.serviceIDs (toLower name) ≠ none →
    c'.service = c.service

theorem Passes.served (h : Passes cr cfg hub r s aa c c') : Served cr cfg hub r s
    { contractId := aa.contractId, nonce := aa.nonce, isOpen := c'.isOpenAuthorization } :=
  .tiered aa c c' _ _ h.readable (Prod.ext h.first rfl) h.eligible (Prod.ext h.second rfl) h.servable

theorem Passes.charged (h : Passes cr cfg hub r s aa c c') : charged cr cfg hub r s = some c' := by
  unfold Sentinel.charged
  rw [h.readable]
  exact h.second

theorem Passes.unexpired (h : Passes cr cfg hub r s aa c c') :
    c'.isExpired s.blockHeight = false := by
  have := h.servable.admits.unexpired
  rw [memStoreGet_blockHeight, contractOf_blockHeight] at this
  exact this

theorem Passes.rateCheck (h : Passes cr cfg hub r s aa c c') (hopt : r.isOptions = false) :
    rateCheck cr cfg hub r s =
      some { contractId := c'.id, addr := r.getRemoteAddr, limitTokens := c'.queriesPerMinute } :=
  rateCheck_of_tiered hopt h.readable (Prod.ext h.first rfl) h.eligible (Prod.ext h.second rfl)
    h.servable

/-- A request that passes under a name the registry has in lower case names a contract
of that service. -/
theorem Passes.first_service {payload : Option (List RegistryEntry)}
    (h : Passes cr (cfg.withRegistry payload) hub r s aa c c') (hname : name = r.serviceName)
    (hid : loadServiceRegistry payload name = some id)
    (hlower : loadServiceRegistry payload (toLower name) ≠ none) : c.service = id := by
  obtain ⟨id', hid'⟩ := Option.ne_none_iff_exists'.mp hlower
  have hm := h.eligible.matching
  unfold serviceMatches at hm
  rw [← hname, show (cfg.withRegistry payload).serviceIDs = loadServiceRegistry payload from rfl,
    hid'] at hm
  rw [← of_decide_eq_true hm]
  exact loadServiceRegistry_lower hid hid'

/-- **The gate holds if and only if** the request meets the condition, for every
registry that can be loaded, every configuration of backends, and whatever the hub
answers. -/
theorem paid_gate_iff (payload : Option (List RegistryEntry)) (services : List ServiceConfig)
    (lookupEnv : String → Option String) :
    PaidGate cr (cfg.withRegistry payload) hub
        (loadProxies services lookupEnv (loadServiceRegistry payload)) r s ↔
      r.isOptions = true ∨ ∀ name uri,
        handleRequestAndRedirect (loadProxies services lookupEnv (loadServiceRegistry payload)) r =
          some (name, uri) → GateKept cr (cfg.withRegistry payload) hub r s name := by
  constructor
  · intro h
    cases hopt : r.isOptions with
    | true => exact .inl rfl
    | false =>
      refine .inr ?_
      intro name uri hsel
      obtain ⟨hname, id, hid⟩ := selected_registered hsel
      -- what passes goes to the service, by the gate
      have hpassed : ∀ aa c c', Passes cr (cfg.withRegistry payload) hub r s aa c c' →
          c'.service = id := by
        intro aa c c' hp
        obtain ⟨c₀, id₀, hch, hid₀, -, hsvc, -⟩ :=
          h _ name uri (auth_paid_iff.mpr ⟨hopt, hp.served⟩) hsel
        obtain rfl := Option.some.inj (hp.charged.symm.trans hch)
        exact hsvc.trans (Option.some.inj (hid₀.symm.trans hid))
      refine ⟨?_, ?_, ?_⟩
      · rintro haa c hc ⟨ho, hw⟩
        have hserved : Served cr (cfg.withRegistry payload) hub r s _ :=
          .bare c _ haa (Prod.ext hc rfl) ho hw
        obtain ⟨c₀, id₀, -, -, -, -, -, hrate⟩ :=
          h _ name uri (auth_paid_iff.mpr ⟨hopt, hserved⟩) hsel
        rw [rateCheck_of_bare hub s haa] at hrate
        cases hrate
      · intro aa c c' hp _
        rw [hpassed aa c c' hp]
        exact hid
      · intro aa c c' hp hlower
        rw [hpassed aa c c' hp, hp.first_service hname hid hlower]
  · intro h charge name uri hpaid hsel
    obtain ⟨hopt, hserved⟩ := auth_paid_iff.mp hpaid
    obtain ⟨hname, id, hid⟩ := selected_registered hsel
    have hkept : GateKept cr (cfg.withRegistry payload) hub r s name := by
      rcases h with hopt' | hkept
      · rw [hopt] at hopt'
        cases hopt'
      · exact hkept name uri hsel
    cases hserved with
    | bare c t haa hget ho hw =>
      refine absurd ⟨ho, ?_⟩ (hkept.readable haa c (by rw [hget]))
      rw [hget]
      exact hw
    | tiered aa c c' t t' haa hfirst he hget hs =>
      have hp : Passes cr (cfg.withRegistry payload) hub r s aa c c' := by
        refine ⟨haa, by rw [hfirst], ?_, ?_, ?_⟩
        · rw [hfirst]
          exact he
        · rw [hfirst]
          show (memStoreGet hub aa.contractId t).1 = _
          rw [hget]
        · rw [hfirst]
          show Servable cr aa c' r.limited (memStoreGet hub aa.contractId t).2
          rw [hget]
          exact hs
      refine ⟨c', id, hp.charged, hid, hp.unexpired, ?_, hs.admits.unlimited, hp.rateCheck hopt⟩
      by_cases hlower : loadServiceRegistry payload (toLower name) = none
      · have hown := hkept.spelled aa c c' hp hlower
        exact (Option.some.inj (hid.symm.trans hown)).symm
      · rw [hkept.agreed aa c c' hp hlower]
        exact hp.first_service hname hid hlower

namespace Sample
open Arkeo.Sample

/-- The hub lists two services. -/
def listing : Option (List RegistryEntry) := some [⟨10, service⟩, ⟨20, "eth-mainnet-fullnode"⟩]

/-- A hub that knows contract 2 as an open subscription for the first of them. -/
def openHub : Hub :=
  fun _ _ => some { answer with type := .subscription, authorization := .openAuth }

/-- The open subscription, which one address may use, has run out. -/
def lapsed : List Action := guarded ++ [.newBlock 5 []]

/-- A request without credentials for the other service, from that address, which the
limiter would refuse. -/
def unreadable : Request where
  arkauth := "x"
  query := [("contract_id", "2")]
  remoteAddr := "10.0.0.1:4711"
  arkservice := "eth-mainnet-fullnode"
  limited := true

/-- The client's payment for a query on contract 2, sent to a service whose name has a
capital letter. -/
def misdirected : Request where
  arkauth := clientHeader
  arkservice := "polygon-Mumbai-testnet-fullnode"

theorem misdirected_fetched :
    misdirected.fetchArkAuth crypto (config.withRegistry none) = some clientAuth :=
  client_fetched rfl rfl

end Sample

/-- **The gate missed.**  A request without credentials is served as paid on a contract
that has run out and is for another service, and no limiter is asked.  With the static
registry, a payment for one service is taken for another whose name has a capital
letter. -/
theorem gate_missed :
    (∃ w c,
      Runs.run (step Sample.crypto (Sample.config.withRegistry Sample.listing) Sample.openHub) {}
        Sample.lapsed = some w ∧
      (auth Sample.crypto (Sample.config.withRegistry Sample.listing) Sample.openHub
        Sample.unreadable w.state).1 = .paid { contractId := 2, nonce := 0, isOpen := true } ∧
      handleRequestAndRedirect (loadProxies [⟨"eth-mainnet-fullnode", "http://eth", "", ""⟩]
        (fun _ => none) (loadServiceRegistry Sample.listing)) Sample.unreadable =
          some ("eth-mainnet-fullnode", "http://eth") ∧
      charged Sample.crypto (Sample.config.withRegistry Sample.listing) Sample.openHub
        Sample.unreadable w.state = some c ∧
      c.isExpired w.state.blockHeight = true ∧ c.service = 10 ∧
      loadServiceRegistry Sample.listing "eth-mainnet-fullnode" = some 20 ∧
      rateCheck Sample.crypto (Sample.config.withRegistry Sample.listing) Sample.openHub
        Sample.unreadable w.state = none) ∧
    ∃ w c,
      Runs.run (step Sample.crypto (Sample.config.withRegistry none) Sample.silent) {}
        [.newBlock 1 [], .opened Sample.opening] = some w ∧
      (auth Sample.crypto (Sample.config.withRegistry none) Sample.silent Sample.misdirected
        w.state).1 = .paid { contractId := 2, nonce := 5, isOpen := false } ∧
      handleRequestAndRedirect (loadProxies [⟨"polygon-Mumbai-testnet-fullnode", "http://mumbai",
        "", ""⟩] (fun _ => none) (loadServiceRegistry none)) Sample.misdirected =
          some ("polygon-Mumbai-testnet-fullnode", "http://mumbai") ∧
      charged Sample.crypto (Sample.config.withRegistry none) Sample.silent Sample.misdirected
        w.state = some c ∧
      c.service = 10 ∧
      loadServiceRegistry none "polygon-Mumbai-testnet-fullnode" = some 289 := by
  have h : ((Runs.run (step Sample.crypto (Sample.config.withRegistry Sample.listing)
      Sample.openHub) {} Sample.lapsed).bind fun w =>
        (charged Sample.crypto (Sample.config.withRegistry Sample.listing) Sample.openHub
          Sample.unreadable w.state).map fun c =>
            ((auth Sample.crypto (Sample.config.withRegistry Sample.listing) Sample.openHub
              Sample.unreadable w.state).1, c.isExpired w.state.blockHeight, c.service,
              rateCheck Sample.crypto (Sample.config.withRegistry Sample.listing) Sample.openHub
                Sample.unreadable w.state)) =
      some (.paid { contractId := 2, nonce := 0, isOpen := true }, true, 10, none) := by
    decide +kernel
  have h' : ((Runs.run (step Sample.crypto (Sample.config.withRegistry none) Sample.silent) {}
      [.newBlock 1 [], .opened Sample.opening]).bind fun w =>
        (charged Sample.crypto (Sample.config.withRegistry none) Sample.silent Sample.misdirected
          w.state).map fun c =>
            ((auth Sample.crypto (Sample.config.withRegistry none) Sample.silent Sample.misdirected
              w.state).1, c.service)) =
      some (.paid { contractId := 2, nonce := 5, isOpen := false }, 10) := by
    simp only [charged, auth, Sample.misdirected_fetched]
    decide +kernel
  obtain ⟨w, hw, h₁⟩ := Option.bind_eq_some_iff.mp h
  obtain ⟨c, hc, h₂⟩ := Option.map_eq_some_iff.mp h₁
  simp only [Prod.mk.injEq] at h₂
  obtain ⟨hpaid, hexp, hsvc, hrate⟩ := h₂
  obtain ⟨w', hw', h₁'⟩ := Option.bind_eq_some_iff.mp h'
  obtain ⟨c', hc', h₂'⟩ := Option.map_eq_some_iff.mp h₁'
  obtain ⟨hpaid', hsvc'⟩ := Prod.mk.inj h₂'
  refine ⟨⟨w, c, hw, hpaid, ?_, hc, hexp, hsvc, ?_, hrate⟩, w', c', hw', hpaid', ?_, hc', hsvc', ?_⟩
  all_goals decide +kernel

end Arkeo.Sentinel
