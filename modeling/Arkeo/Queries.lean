import Arkeo.History
import Arkeo.StoreKeys

/-! # The queries

What a client reads of the module without a transaction: a contract by its id, and the contract
that a spender has open with a provider.  The sentinels ask both.

A stored contract is found under its id, and from then on for ever (`contract_stays_found`).  The
set of a user holds the ids in the order of their openings (`Ascending`), so the contract that
`ActiveContract` answers with is the oldest of those it may answer with
(`active_contract_is_oldest`).
-/
namespace Arkeo
open Exec

/-- The statuses that the queries fail with. -/
inductive QueryError where
  | invalidArgument (desc : String)
  | notFound
  | internal
  | aborted
  deriving DecidableEq, Repr

structure QueryActiveContractRequest where
  provider : PubKey
  service : String
  spender : PubKey

def queryFetchContract (contractId : ℕ) (s : ChainState) : Except QueryError Contract :=
  match getContract contractId s with
  | .error _ _ => .error .internal
  | .ok val _ => if val.height ≤ 0 then .error .notFound else .ok val

def queryActiveContract (cr : Crypto) (ctx : Context) (req : QueryActiveContractRequest)
    (s : ChainState) : Except QueryError Contract :=
  match cr.newPubKey req.provider with
  | none => .error (.invalidArgument "invalid provider pubkey")
  | some providerPubKey =>
    match resolveServiceEnum req.service s with
    | .error _ _ => .error (.invalidArgument "invalid service")
    | .ok (service, _) _ =>
      match cr.newPubKey req.spender with
      | none => .error (.invalidArgument "invalid spender pubkey")
      | some spenderPubKey =>
        match getActiveContractForUser ctx spenderPubKey providerPubKey service s with
        | .error _ _ => .error .aborted
        | .ok activeContract _ =>
          if activeContract.isEmpty then .error .notFound else .ok activeContract

variable {cr : Crypto} {ctx : Context} {s s' : ChainState} {w w' w'' : World} {a : Action}
  {c : Contract} {req : QueryActiveContractRequest}

/-! ## A contract by its id -/

/-- **A contract is found exactly if it is stored.** -/
theorem queryFetchContract_eq (hi : Inv cr ctx s) (contractId : ℕ) :
    queryFetchContract contractId s =
      (s.contracts.lookup contractId).elim (.error .notFound) .ok := by
  have hget : getContract contractId s = .ok ((s.contracts.lookup contractId).getD {}) s := rfl
  unfold queryFetchContract
  rw [hget]
  cases hc : s.contracts.lookup contractId with
  | none => rfl
  | some c =>
    have hpos := (hi.stored contractId c hc).wf.height_pos
    have hheight : ¬c.height ≤ 0 := by
      rw [Int64.le_iff_toInt_le]
      exact not_le.mpr hpos
    exact if_neg hheight

/-- **A contract stays found.**  What is once found in a reachable state is found in every later
one, with the same terms, a nonce that is no lower, and settled once at most. -/
theorem contract_stays_found (hg : Genesis w) {actions later : List Action}
    (h : Runs.run (step cr) w actions = some w') {contractId : ℕ}
    (hc : queryFetchContract contractId w'.chain = .ok c)
    (hlater : Runs.run (step cr) w' later = some w'') :
    ∃ c', queryFetchContract contractId w''.chain = .ok c' ∧
      c.Later w'.ctx.blockHeight.toInt w''.ctx.blockHeight.toInt c' := by
  have hi := reachable_inv hg h
  rw [queryFetchContract_eq hi] at hc
  obtain ⟨d, hd⟩ : ∃ d, w'.chain.contracts.lookup contractId = some d := by
    cases hd : w'.chain.contracts.lookup contractId with
    | none =>
      rw [hd] at hc
      cases hc
    | some d => exact ⟨d, rfl⟩
  rw [hd] at hc
  obtain rfl := Except.ok.inj hc
  obtain ⟨c', hc', hl⟩ := run_later hi hlater hd
  refine ⟨c', ?_, hl⟩
  have hi' : Inv cr w''.ctx w''.chain := Runs.run_induct (P := fun v => Inv cr v.ctx v.chain)
    (fun _ _ _ hv hstep => (step_outcome hv hstep).inv hv) hi hlater
  rw [queryFetchContract_eq hi', hc']
  rfl

/-! ## The order of a user's set -/

/-- Every user's set holds its ids in the order of the openings. -/
def ChainState.Ascending (s : ChainState) : Prop := ∀ key, (s.userIds key).Pairwise (· < ·)

namespace ChainState.Ascending

theorem of_eq (h : s.Ascending) (hu : s'.userSets = s.userSets) : s'.Ascending := by
  intro key
  rw [userIds, hu]
  exact h key

theorem opened (h : s.Ascending) (hi : Inv cr ctx s) (signer : Bytes)
    (hid : c.id = s.getNextContractId) : (s.opened ctx signer c).Ascending := by
  intro key
  rw [opened_userIds]
  split
  · refine List.pairwise_append.mpr ⟨h key, List.pairwise_singleton _ _, ?_⟩
    intro k hk k' hk'
    obtain rfl := List.mem_singleton.mp hk'
    obtain ⟨d, hd, -⟩ := hi.owned key k hk
    rw [hid]
    exact (hi.stored k d hd).lt_next
  · exact h key

theorem settle (h : s.Ascending) (cr : Crypto) (ctx : Context) (c : Contract) (isFinal : Bool) :
    (s.settle cr ctx c isFinal).Ascending := by
  intro key
  rw [settle_userIds]
  split
  · exact (h key).sublist List.erase_sublist
  · exact h key

theorem relisted (h : s.Ascending) (ctx : Context) (c : Contract) : (s.relisted ctx c).Ascending := by
  unfold ChainState.relisted
  split
  · exact h.of_eq rfl
  · exact h

theorem expireAll (h : s.Ascending) (hi : Inv cr ctx s) (ids : List ℕ) :
    (s.expireAll cr ctx ids).Ascending := by
  refine expireAll_induct (P := Ascending) ?_ hi h ids
  intro t c _ _ _ ht
  exact (ht.settle cr ctx (c.raiseNonce 0) true).of_eq rfl

end ChainState.Ascending

theorem Outcome.ascending (ho : Outcome cr w a w') (hi : Inv cr w.ctx w.chain)
    (h : w.chain.Ascending) : w'.chain.Ascending := by
  cases ho with
  | rejected m => exact h
  | unsent src dst coin => exact h
  | provider m s' hdel hm hq hd => exact h.of_eq hq.userSets
  | opened msg signer service c hsvc hv hc ho => exact h.opened hi signer ho.id_eq
  | closed msg c t hd hc hid hopen hby hs ht =>
    rw [ht]
    exact ((h.relisted w.ctx c).settle cr w.ctx c c.isSubscription).of_eq rfl
  | claimed msg c hc hid hn hset hf => exact h.settle cr w.ctx (c.raiseNonce msg.nonce) false
  | sent src dst coin h0 hle => exact h.of_eq (ChainState.sent_userSets ..)
  | ended ctx' hctx => exact h.expireAll hi _

theorem reachable_ascending (hg : Genesis w) {actions : List Action}
    (h : Runs.run (step cr) w actions = some w') : w'.chain.Ascending := by
  have hstart : w.chain.Ascending := by
    intro key
    rw [ChainState.userIds, hg.userSets]
    exact List.Pairwise.nil
  exact (Runs.run_induct (P := fun v => Inv cr v.ctx v.chain ∧ v.chain.Ascending)
    (fun _ _ _ hv hstep =>
      ⟨(step_outcome hv.1 hstep).inv hv.1, (step_outcome hv.1 hstep).ascending hv.1 hv.2⟩)
    ⟨hg.inv, hstart⟩ h).2

/-- The first that is found in an ascending list is the least. -/
theorem find?_ascending {l : List ℕ} (h : l.Pairwise (· < ·)) {p : ℕ → Bool} {k : ℕ} :
    l.find? p = some k ↔ k ∈ l ∧ p k = true ∧ ∀ k' ∈ l, p k' = true → k ≤ k' := by
  induction l with
  | nil => simp
  | cons x l ih =>
    obtain ⟨hx, hl⟩ := List.pairwise_cons.mp h
    by_cases hp : p x = true
    · rw [List.find?_cons_of_pos hp, Option.some.injEq]
      constructor
      · rintro rfl
        refine ⟨List.mem_cons_self .., hp, fun k' hk' _ => ?_⟩
        rcases List.mem_cons.mp hk' with rfl | hmem
        · exact le_rfl
        · exact (hx k' hmem).le
      · rintro ⟨hk, -, hmin⟩
        have hle := hmin x (List.mem_cons_self ..) hp
        rcases List.mem_cons.mp hk with rfl | hmem
        · rfl
        · have := hx k hmem
          omega
    · rw [List.find?_cons_of_neg hp, ih hl]
      constructor
      · rintro ⟨hk, hpk, hmin⟩
        refine ⟨List.mem_cons_of_mem x hk, hpk, fun k' hk' hp' => ?_⟩
        rcases List.mem_cons.mp hk' with rfl | hmem
        · exact absurd hp' hp
        · exact hmin k' hmem hp'
      · rintro ⟨hk, hpk, hmin⟩
        rcases List.mem_cons.mp hk with rfl | hmem
        · exact absurd hpk hp
        · exact ⟨hmem, hpk, fun k' hk' => hmin k' (List.mem_cons_of_mem x hk')⟩

/-! ## The contract that is open -/

/-- What `ActiveContract` may answer with: an open contract of the spender, not settled, with
the provider as the request spells it, for the service that the registry names so. -/
structure QueryActiveContractRequest.Names (req : QueryActiveContractRequest) (ctx : Context)
    (s : ChainState) (c : Contract) : Prop where
  stored : s.contracts.lookup c.id = some c
  unsettled : c.settlementHeight = 0
  spender : toUpper c.getSpender = toUpper req.spender
  provider : c.provider = req.provider
  service : s.serviceId? req.service = some c.service
  isOpen : c.isOpen ctx.blockHeight = true

/-- The request can be read. -/
structure QueryActiveContractRequest.Readable (req : QueryActiveContractRequest) (cr : Crypto)
    (s : ChainState) : Prop where
  provider : (cr.newPubKey req.provider).isSome
  service : (s.serviceId? req.service).isSome
  spender : (cr.newPubKey req.spender).isSome

theorem Crypto.newPubKey_isSome {key : String} (h : (cr.newPubKey key).isSome) :
    cr.newPubKey key = some key := by
  obtain ⟨pk, hpk⟩ := Option.isSome_iff_exists.mp h
  rw [hpk, (newPubKey_some hpk).1]

/-- The test of the scan. -/
def QueryActiveContractRequest.matches (req : QueryActiveContractRequest) (ctx : Context)
    (service : ℕ) (c : Contract) : Bool :=
  c.provider = req.provider && serviceEquals c.service service && c.isOpen ctx.blockHeight

/-- The answer to a request that can be read. -/
theorem queryActiveContract_readable (hr : req.Readable cr s) {service : ℕ}
    (hservice : s.serviceId? req.service = some service) :
    queryActiveContract cr ctx req s =
      let found := (((s.userIds (toUpper req.spender)).find? fun id =>
        req.matches ctx service ((s.contracts.lookup id).getD {})).map fun id =>
          (s.contracts.lookup id).getD {}).getD {}
      if found.isEmpty then .error .notFound else .ok found := by
  obtain ⟨svc, hsvc⟩ : ∃ svc, s.services.lookup (toLower req.service) = some svc := by
    unfold ChainState.serviceId? at hservice
    obtain ⟨svc, hsvc, -⟩ := Option.bind_eq_some_iff.mp hservice
    exact ⟨svc, hsvc⟩
  have hresolve : resolveServiceEnum req.service s = .ok (service, svc) s :=
    resolveServiceEnum_ok.mpr ⟨⟨hservice, hsvc⟩, rfl⟩
  have hactive : getActiveContractForUser ctx req.spender req.provider service s =
      .ok ((((s.userIds (toUpper req.spender)).map fun id =>
        (s.contracts.lookup id).getD {}).find? (req.matches ctx service)).getD {}) s := by
    unfold getActiveContractForUser
    refine bind_ok.mpr ⟨_, s, getUserContractSet_ok.mpr ⟨rfl, rfl⟩, ?_⟩
    rw [ChainState.userIds_getD]
    rfl
  unfold queryActiveContract
  rw [Crypto.newPubKey_isSome hr.provider, Crypto.newPubKey_isSome hr.spender]
  simp only [hresolve, hactive, List.find?_map]
  rfl

/-- What the scan of a user's set finds is what the request names. -/
theorem matches_iff (hi : Inv cr ctx s) {service id : ℕ}
    (hservice : s.serviceId? req.service = some service) :
    (id ∈ s.userIds (toUpper req.spender) ∧
      req.matches ctx service ((s.contracts.lookup id).getD {}) = true) ↔
    ∃ c, s.contracts.lookup id = some c ∧ c.id = id ∧ req.Names ctx s c := by
  unfold QueryActiveContractRequest.matches
  simp only [Bool.and_eq_true, decide_eq_true_eq]
  constructor
  · rintro ⟨hid, ⟨hprovider, hname⟩, hopen⟩
    obtain ⟨c, hc, h0, huser⟩ := hi.owned _ id hid
    rw [hc] at hprovider hname hopen
    have hidc := (hi.stored id c hc).id_eq
    have hsvc := hservice.trans (congrArg some (serviceEquals_iff.mp hname).symm)
    exact ⟨c, hc, hidc, by rw [hidc]; exact hc, h0, huser.symm, hprovider, hsvc, hopen⟩
  · rintro ⟨c, hc, hidc, hn⟩
    have hmem := hi.indexed id c hc hn.unsettled
    rw [hn.spender] at hmem
    have hsvc := Option.some.inj (hservice.symm.trans hn.service)
    rw [hc]
    exact ⟨hmem, ⟨hn.provider, by rw [hsvc]; exact serviceEquals_self c.service⟩, hn.isOpen⟩

/-- **`ActiveContract` answers with the oldest.**  In every reachable state, for a request that
can be read: the answer is the contract of the least id among those that the request names, and
the query finds nothing exactly if the request names none. -/
theorem active_contract_is_oldest (hg : Genesis w) {actions : List Action}
    (h : Runs.run (step cr) w actions = some w') (hr : req.Readable cr w'.chain) :
    (∀ c, queryActiveContract cr w'.ctx req w'.chain = .ok c ↔
      req.Names w'.ctx w'.chain c ∧ ∀ c', req.Names w'.ctx w'.chain c' → c.id ≤ c'.id) ∧
    (queryActiveContract cr w'.ctx req w'.chain = .error .notFound ↔
      ∀ c, ¬req.Names w'.ctx w'.chain c) := by
  have hi := reachable_inv hg h
  obtain ⟨service, hservice⟩ := Option.isSome_iff_exists.mp hr.service
  have hasc := reachable_ascending hg h (toUpper req.spender)
  rw [queryActiveContract_readable hr hservice]
  simp only
  cases hfind : (w'.chain.userIds (toUpper req.spender)).find? fun id =>
      req.matches w'.ctx service ((w'.chain.contracts.lookup id).getD {}) with
  | none =>
    have hnone : ∀ c, ¬req.Names w'.ctx w'.chain c := by
      intro c hn
      obtain ⟨hmem, hmatch⟩ := (matches_iff hi hservice).mpr ⟨c, hn.stored, rfl, hn⟩
      exact List.find?_eq_none.mp hfind c.id hmem hmatch
    have hempty : ({} : Contract).isEmpty = true := by decide
    rw [Option.map_none, Option.getD_none, if_pos hempty]
    refine ⟨fun c => ⟨fun hc => ?_, fun hc => absurd hc.1 (hnone c)⟩, fun _ => hnone, fun _ => rfl⟩
    cases hc
  | some id =>
    obtain ⟨hmem, hmatch, hmin⟩ := (find?_ascending hasc).mp hfind
    obtain ⟨c, hc, hid, hn⟩ := (matches_iff hi hservice).mp ⟨hmem, hmatch⟩
    have hfull : c.isEmpty = false := by
      have hopen := hn.isOpen
      simp only [Contract.isOpen, Bool.and_eq_true, Bool.not_eq_true'] at hopen
      exact hopen.1.1
    have holdest : ∀ c', req.Names w'.ctx w'.chain c' → c.id ≤ c'.id := by
      intro c' hn'
      obtain ⟨hmem', hmatch'⟩ := (matches_iff hi hservice).mpr ⟨c', hn'.stored, rfl, hn'⟩
      rw [hid]
      exact hmin c'.id hmem' hmatch'
    rw [Option.map_some, Option.getD_some, hc, Option.getD_some, if_neg (by simp [hfull])]
    refine ⟨fun d => ⟨?_, ?_⟩, ⟨?_, fun hnone => absurd hn (hnone c)⟩⟩
    · intro hd
      obtain rfl := Except.ok.inj hd
      exact ⟨hn, holdest⟩
    · rintro ⟨hnd, hleast⟩
      have hsame : c.id = d.id := le_antisymm (holdest d hnd) (hleast c hn)
      have hd := hnd.stored
      rw [← hsame, hn.stored] at hd
      rw [Option.some.inj hd]
    · intro hd
      cases hd

/-! ## A client with two open contracts -/

/-- The client's request. -/
def Sample.activeRequest : QueryActiveContractRequest where
  provider := provider.pubKey
  service := service
  spender := client.pubKey

/-- The subscription was opened first. -/
theorem subscription_is_oldest : ∃ w c,
    Runs.run (step Sample.crypto) Sample.genesis (Sample.setup ++ Sample.openings) = some w ∧
    w.chain.contracts.lookup 2 = some c ∧ c.isOpen w.ctx.blockHeight = true ∧
    queryActiveContract Sample.crypto w.ctx Sample.activeRequest w.chain =
      .ok (Sample.freshContract .subscription 10 1) ∧
    ∀ c, Sample.activeRequest.Names w.ctx w.chain c → 1 ≤ c.id := by
  have hreadable : Sample.activeRequest.Readable Sample.crypto Sample.contracted.chain :=
    ⟨by decide +kernel, by decide +kernel, by decide +kernel⟩
  have hquery : queryActiveContract Sample.crypto Sample.contracted.ctx Sample.activeRequest
      Sample.contracted.chain = .ok (Sample.freshContract .subscription 10 1) := by
    decide +kernel
  obtain ⟨-, hleast⟩ := ((active_contract_is_oldest Sample.genesis_ok Sample.openings_run
    hreadable).1 _).mp hquery
  exact ⟨_, Sample.freshContract .payAsYouGo 100 2, Sample.openings_run, rfl, by decide, hquery,
    hleast⟩

/-- The subscription is still found when both contracts are settled. -/
theorem subscription_stays_found : ∃ w c,
    Runs.run (step Sample.crypto) Sample.genesis (Sample.lifetimes ++ [.endBlock]) = some w ∧
    queryFetchContract 1 w.chain = .ok c ∧ c.provider = Sample.provider.pubKey := by
  obtain ⟨v, w, -, hv, hw, -⟩ := Sample.lifetimes_run
  have hrun : Runs.run (step Sample.crypto) Sample.genesis (Sample.lifetimes ++ [.endBlock]) =
      some w := Runs.run_append.mpr ⟨v, hv, Runs.run_cons.mpr ⟨w, hw, rfl⟩⟩
  have hsplit : Sample.lifetimes ++ [Action.endBlock] = Sample.setup ++ Sample.openings ++
      (Sample.lifetimes ++ [Action.endBlock]).drop 4 := rfl
  have hrest := hrun
  rw [hsplit, Runs.run_append_of Sample.openings_run] at hrest
  have hfound : queryFetchContract 1 Sample.contracted.chain =
      .ok (Sample.freshContract .subscription 10 1) := by decide +kernel
  obtain ⟨c, hc, hl⟩ := contract_stays_found Sample.genesis_ok Sample.openings_run hfound hrest
  exact ⟨w, c, hrun, hc, hl.provider_eq⟩

end Arkeo
