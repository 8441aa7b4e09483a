import Arkeo.Sentinel.Claimable
import Arkeo.Sentinel.Memory

/-! # Whose contracts are served

The sentinel learns of a contract from the event of its opening, which it takes in
only when the contract is its provider's, or by asking the hub, which it does for
whatever contract a request names and without looking at the provider in the
answer.  As long as it only asks for contracts of its own, every paid request is
charged to one of them (`paid_requests_charge_own_contracts`); when it asks for
another's, it serves that too (`foreign_contract_served`).
-/
namespace Arkeo.Sentinel
open Exec Text

variable {cr : Crypto} {cfg : Config} {hub : Hub} {s s' : State} {w w' : World} {k : ℕ}
variable {chain : ℕ → Option Contract}

/-- The hub answers with the contract of the chain that it was asked for, or with an
error body. -/
def Honest (chain : ℕ → Option Contract) (hub : Hub) : Prop :=
  ∀ n k r, hub n k = some r → r = {} ∨ (∃ c, chain k = some c) ∧ (parseUint r.id).1 = k

/-- The event of an opening is that of a contract of the chain. -/
def Action.Truthful (chain : ℕ → Option Contract) : Action → Prop
  | .opened e => ∃ c, chain e.contractId = some c ∧ c.provider = e.provider
  | _ => True

/-- The contract is on the chain, and this sentinel's provider is paid for it. -/
def Own (chain : ℕ → Option Contract) (cfg : Config) (k : ℕ) : Prop :=
  ∃ c, chain k = some c ∧ c.provider = cfg.providerPubKey

/-- The contracts a step looks up. -/
def lookups (cr : Crypto) (cfg : Config) (s : State) : Action → List ℕ
  | .request r => [r.key cr cfg]
  | .openClaims => ((claimStoreList s).filter fun c => !c.claimed).map Claim.contractId
  | .manage id _ _ => (read (parseUint id)).toList.map fun id => (configGet id s).contractId
  | _ => []

/-- **The guard.**  A contract of the chain that the step asks the hub for is this
provider's. -/
def AsksForOwn (chain : ℕ → Option Contract) (cr : Crypto) (cfg : Config) (w : World)
    (a : Action) : Prop :=
  ∀ k ∈ lookups cr cfg w.state a, w.state.cached k = false →
    ∀ c, chain k = some c → c.provider = cfg.providerPubKey

/-! ## The memory -/

/-- Everything in memory is a contract of this provider, under its own id. -/
def Owned (chain : ℕ → Option Contract) (cfg : Config) (s : State) : Prop :=
  ∀ k c, s.db.lookup k = some c → c.id = k ∧ Own chain cfg k

/-- Asking for the contract is all right in this state. -/
def MayAsk (chain : ℕ → Option Contract) (cfg : Config) (s : State) (k : ℕ) : Prop :=
  s.cached k = false → ∀ c, chain k = some c → c.provider = cfg.providerPubKey

/-- What the look-up of a contract gives: the zero contract of an error body, or a
contract of this provider. -/
structure Found (chain : ℕ → Option Contract) (cfg : Config) (k : ℕ)
    (out : Option CachedContract × State) : Prop where
  owned : Owned chain cfg out.2
  own : ∀ c, out.1 = some c → c = FetchContract.contract {} ∨ c.id = k ∧ Own chain cfg k

theorem Owned.memStoreGet (h : Owned chain cfg s) (hh : Honest chain hub)
    (hk : MayAsk chain cfg s k) : Found chain cfg k (memStoreGet hub k s) := by
  have hans : s.cached k = false → ∀ n r, hub n k = some r →
      r = {} ∨ r.contract.id = k ∧ Own chain cfg k := by
    intro hc n r hr
    rcases hh n k r hr with rfl | ⟨⟨c, hchain⟩, hid⟩
    · exact .inl rfl
    · exact .inr ⟨hid, c, hchain, hk hc c hchain⟩
  obtain ⟨hmem, hfound⟩ := Holds.found h hans
  exact ⟨hmem, hfound⟩

/-- A second look-up of the same contract may ask when the first one may. -/
theorem MayAsk.again (h : MayAsk chain cfg s k) (hub : Hub) (j : ℕ) :
    MayAsk chain cfg (memStoreGet hub j s).2 k := by
  intro hc
  refine h ?_
  cases hk : s.cached k with
  | false => rfl
  | true =>
    rw [cached_memStoreGet hub hk] at hc
    cases hc

theorem Owned.of_eq (h : Owned chain cfg s) (he : s'.db = s.db) : Owned chain cfg s' :=
  Holds.of_eq h he

theorem owned_of_empty (h : s.db = ∅) : Owned chain cfg s := holds_of_empty h

theorem Owned.put (h : Owned chain cfg s) {c : CachedContract} (hc : Own chain cfg c.id) :
    Owned chain cfg (memStorePut c s) :=
  Holds.put h hc

/-! ## Requests -/

theorem Admits.own {c : CachedContract} {aa : ArkAuth} {limited : Bool} {t : State}
    (ha : Admits c aa limited t)
    (ho : c = FetchContract.contract {} ∨ c.id = k ∧ Own chain cfg k) :
    c.id = k ∧ Own chain cfg k := by
  rcases ho with rfl | ho
  · have hexp := ha.unexpired
    rw [isExpired_zero] at hexp
    cases hexp
  · exact ho

/-- The paid tier charges own contracts only, and keeps the memory to them. -/
theorem Owned.paidTier (h : Owned chain cfg s) (hh : Honest chain hub) {aa : ArkAuth}
    (hk : MayAsk chain cfg s aa.contractId) (limited : Bool) :
    Owned chain cfg (finalStore (paidTier cr cfg hub aa limited s)) ∧
      ∀ charge t, paidTier cr cfg hub aa limited s = .ok charge t →
        Own chain cfg charge.contractId := by
  have hfound := h.memStoreGet hh hk
  have ho := paidTier_outcome cr cfg hub aa limited s
  generalize Sentinel.paidTier cr cfg hub aa limited s = r at ho ⊢
  cases ho with
  | refused e => exact ⟨hfound.owned, nofun⟩
  | openly c t hg ha ho =>
    rw [hg] at hfound
    refine ⟨hfound.owned, ?_⟩
    rintro _ _ ⟨⟩
    exact (ha.own (hfound.own c rfl)).2
  | stored c t u hg ha ho hsig hf hu _ hr =>
    rw [hg] at hfound
    obtain ⟨hid, hown⟩ := ha.own (hfound.own c rfl)
    have hput : Owned chain cfg u := by
      have hwith : Owned chain cfg (t.withClaim cfg (aa.inferSpender c)) :=
        Owned.of_eq hfound.owned rfl
      rw [hu]
      exact hwith.put (by rw [hid]; exact hown)
    rcases hr with ⟨-, rfl⟩ | rfl
    · refine ⟨hput, ?_⟩
      rintro _ _ ⟨⟩
      exact hown
    · exact ⟨hput, nofun⟩

theorem Owned.auth (h : Owned chain cfg s) (hh : Honest chain hub) {r : Request}
    (hk : MayAsk chain cfg s (r.key cr cfg)) :
    Owned chain cfg (auth cr cfg hub r s).2 ∧
      ∀ charge, (auth cr cfg hub r s).1 = .paid charge → Own chain cfg charge.contractId := by
  have hfound := h.memStoreGet hh hk
  have ho := auth_outcome cr cfg hub r s
  generalize Sentinel.auth cr cfg hub r s = out at ho ⊢
  cases ho with
  | idle resp hresp => exact ⟨h, fun charge hp => absurd hp (hresp charge)⟩
  | looked resp hresp => exact ⟨hfound.owned, fun charge hp => absurd hp (hresp charge)⟩
  | whitelisted c t hg hw =>
    rw [hg] at hfound
    refine ⟨hfound.owned, ?_⟩
    rintro _ ⟨⟩
    rcases hfound.own c rfl with rfl | ho
    · -- the contract of an error body has no client, and no whitelist
      exact absurd hw Bool.false_ne_true
    · exact ho.2
  | tiered aa hkey t ht resp hresp =>
    rw [hkey] at hk hfound
    have htier : Owned chain cfg t ∧ MayAsk chain cfg t aa.contractId := by
      rcases ht with rfl | rfl
      · exact ⟨h, hk⟩
      · exact ⟨hfound.owned, hk.again hub aa.contractId⟩
    obtain ⟨howned, hcharge⟩ := htier.1.paidTier hh htier.2 r.limited
    refine ⟨howned, ?_⟩
    intro charge hp
    obtain ⟨u, hu⟩ := hresp charge hp
    exact hcharge charge u hu

/-! ## The other steps -/

/-- An honest answer about a contract the sentinel may ask for is that of an own one. -/
theorem MayAsk.answered (h : MayAsk chain cfg s k) (hh : Honest chain hub) :
    Answered (fun k _ => Own chain cfg k) hub s k := by
  intro hc n r t hr hexp
  rcases hh n k r hr with rfl | ⟨⟨c, hchain⟩, hid⟩
  · rw [isExpired_zero] at hexp
    cases hexp
  · exact ⟨hid, c, hchain, h hc c hchain⟩

theorem Owned.handleOpenClaims (h : Owned chain cfg s) (hh : Honest chain hub)
    (hk : ∀ claim ∈ claimStoreList s, claim.claimed = false →
      MayAsk chain cfg s claim.contractId) : Owned chain cfg (handleOpenClaims hub s).2 :=
  Holds.handleOpenClaims h fun claim hmem hcl => (hk claim hmem hcl).answered hh

theorem Owned.handleContract (h : Owned chain cfg s) (hh : Honest chain hub) {id raw : String}
    (m : Method) (hk : ∀ n, read (parseUint id) = some n →
      MayAsk chain cfg s (configGet n s).contractId) :
    Owned chain cfg (handleContract cr hub id raw m s).2 :=
  Holds.handleContract h m fun n hn => (hk n hn).answered hh

theorem Owned.handleOpenContract (h : Owned chain cfg s) {e : EventOpenContract}
    (he : ∃ c, chain e.contractId = some c ∧ c.provider = e.provider) :
    Owned chain cfg (handleOpenContract cfg e s) := by
  refine Holds.handleOpenContract h ?_
  intro hp
  obtain ⟨c, hc, hprov⟩ := he
  exact ⟨c, hc, hprov.trans hp⟩

theorem Owned.handleCloseContract (h : Owned chain cfg s) (id : ℕ) (provider : PubKey)
    (service : String) (client delegate : PubKey) :
    Owned chain cfg (handleCloseContract cfg id provider service client delegate s) :=
  Holds.handleCloseContract h id provider service client delegate

/-! ## Runs -/

/-- The memory and the charges of a world are this provider's. -/
structure Payable (chain : ℕ → Option Contract) (cfg : Config) (w : World) : Prop where
  owned : Owned chain cfg w.state
  served : ∀ charge ∈ w.served, Own chain cfg charge.contractId

/-- **One step** that asks for own contracts charges own contracts. -/
theorem step_payable {a : Action} (hh : Honest chain hub) (h : Payable chain cfg w)
    (hg : AsksForOwn chain cr cfg w a ∧ a.Truthful chain)
    (hs : step cr cfg hub w a = some w') : Payable chain cfg w' := by
  obtain ⟨hask, htrue⟩ := hg
  cases a with
  | request r =>
    have hmay : MayAsk chain cfg w.state (r.key cr cfg) := hask _ (List.mem_singleton_self _)
    obtain ⟨howned, hcharge⟩ := h.owned.auth hh hmay
    cases hs
    refine ⟨howned, ?_⟩
    intro charge hmem
    simp only at hmem
    split at hmem
    · rename_i c hp
      rcases List.mem_append.mp hmem with hm | hm
      · exact h.served charge hm
      · rw [List.mem_singleton.mp hm]
        exact hcharge c hp
    · exact h.served charge hmem
  | openClaims =>
    cases hs
    refine ⟨h.owned.handleOpenClaims hh ?_, h.served⟩
    intro claim hmem hcl
    exact hask _ (List.mem_map_of_mem (List.mem_filter.mpr ⟨hmem, by simp [hcl]⟩))
  | markClaimed id nonce =>
    cases hs
    exact ⟨h.owned.of_eq (handleMarkClaimed_db id nonce w.state), h.served⟩
  | manage id raw m =>
    cases hs
    refine ⟨h.owned.handleContract hh m ?_, h.served⟩
    intro n hn
    exact hask _ (List.mem_map_of_mem (Option.mem_toList.mpr hn))
  | opened e =>
    cases hs
    exact ⟨h.owned.handleOpenContract htrue, h.served⟩
  | closed id provider service client delegate =>
    cases hs
    exact ⟨h.owned.handleCloseContract id provider service client delegate, h.served⟩
  | settled e =>
    cases hs
    exact ⟨h.owned.of_eq (handleSettlement_db cfg e w.state), h.served⟩
  | newBlock height es =>
    cases hs
    exact ⟨h.owned.of_eq (handleNewBlock_db cfg height es w.state), h.served⟩
  | restart =>
    cases hs
    exact ⟨owned_of_empty rfl, h.served⟩

/-- **Paid service is payable.**  In a run that only asks the hub for contracts of
its own, every paid request was charged to a contract whose provider on the chain
is this sentinel's. -/
theorem paid_requests_charge_own_contracts (hh : Honest chain hub) {actions : List Action}
    (htrue : ∀ a ∈ actions, a.Truthful chain)
    (hg : Runs.Guarded (step cr cfg hub) (AsksForOwn chain cr cfg) {} actions)
    (hrun : Runs.run (step cr cfg hub) {} actions = some w) :
    ∀ charge ∈ w.served, ∃ c, chain charge.contractId = some c ∧
      c.provider = cfg.providerPubKey := by
  have hinit : Payable chain cfg {} := ⟨owned_of_empty rfl, fun _ h => absurd h List.not_mem_nil⟩
  exact (Runs.run_induct_of_guarded (fun _ _ _ h hg hs => step_payable hh h hg hs) hinit
    (hg.and_forall htrue) hrun).served

namespace Sample
open Arkeo.Sample

/-- The client has a contract with the provider, and one with the stranger. -/
def contracts (k : ℕ) : Option Contract :=
  if k = 2 then some onChain
  else if k = 3 then some { onChain with id := 3, provider := stranger.pubKey }
  else none

/-- The client asks the provider's sentinel for a query. -/
def query : Request where
  arkauth := clientHeader

theorem query_fetched : query.fetchArkAuth crypto config = some clientAuth :=
  client_fetched rfl rfl

end Sample

/-- The client's query is charged to the provider's contract. -/
theorem query_charged_to_own : ∃ w,
    Runs.run (step Sample.crypto Sample.config Sample.silent) {}
      [.newBlock 1 [], .opened Sample.opening, .request Sample.query] = some w ∧
    w.served = [{ contractId := 2, nonce := 5, isOpen := false }] ∧
    ∀ charge ∈ w.served, ∃ c, Sample.contracts charge.contractId = some c ∧
      c.provider = Sample.config.providerPubKey := by
  have hkey : Sample.query.key Sample.crypto Sample.config = 2 := by
    rw [Request.key, Sample.query_fetched]
    rfl
  have hserved : (Runs.run (step Sample.crypto Sample.config Sample.silent) {}
      [.newBlock 1 [], .opened Sample.opening, .request Sample.query]).map World.served =
        some [{ contractId := 2, nonce := 5, isOpen := false }] := by
    simp only [Runs.run, step, auth, Sample.query_fetched]
    decide +kernel
  obtain ⟨w, hw, hs⟩ := Option.map_eq_some_iff.mp hserved
  have hhonest : Honest Sample.contracts Sample.silent := by
    intro n k r hr
    cases hr
  refine ⟨w, hw, hs, paid_requests_charge_own_contracts hhonest ?_ ?_ hw⟩
  · intro a ha
    simp only [List.mem_cons, List.not_mem_nil, or_false] at ha
    rcases ha with rfl | rfl | rfl
    · trivial
    · exact ⟨Sample.onChain, rfl, rfl⟩
    · trivial
  · refine ⟨?_, fun _ _ => ⟨?_, fun _ _ => ⟨?_, fun _ _ => trivial⟩⟩⟩
    · intro k hk
      cases hk
    · intro k hk
      cases hk
    intro k hk _ c hc
    rw [List.mem_singleton.mp hk, hkey] at hc
    cases hc
    rfl

/-- **Somebody else's contract is served.**  A query on a contract with the stranger
is served by the provider's sentinel, which cannot be paid for it: the hub's answer
has the provider in a field that the sentinel does not read. -/
theorem foreign_contract_served : ∃ (chain : ℕ → Option Contract) (hub : Hub) (w : World),
    Honest chain hub ∧
    Runs.run (step Sample.crypto Sample.config hub) {} [.newBlock 1 [], .request Sample.query] =
      some w ∧
    w.served = [{ contractId := 2, nonce := 5, isOpen := false }] ∧
    ¬∃ c, chain 2 = some c ∧ c.provider = Sample.config.providerPubKey := by
  let hub : Hub := fun _ k => if k = 2 then some Sample.answer else none
  have hserved : (Runs.run (step Sample.crypto Sample.config hub) {}
      [.newBlock 1 [], .request Sample.query]).map World.served =
        some [{ contractId := 2, nonce := 5, isOpen := false }] := by
    simp only [Runs.run, step, auth, Sample.query_fetched]
    decide +kernel
  obtain ⟨w, hw, hs⟩ := Option.map_eq_some_iff.mp hserved
  refine ⟨fun k => if k = 2 then some { Sample.onChain with provider := Sample.stranger.pubKey }
      else none, hub, w, ?_, hw, hs, ?_⟩
  · intro n k r hr
    simp only [hub] at hr
    split at hr
    · rename_i hk
      cases hr
      exact .inr ⟨⟨_, if_pos hk⟩, by rw [hk]; decide +kernel⟩
    · cases hr
  · rintro ⟨c, hc, hp⟩
    cases hc
    exact absurd hp (by decide)

end Arkeo.Sentinel
