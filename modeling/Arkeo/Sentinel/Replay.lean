import Arkeo.Sentinel.Claimable

/-! # Nonces are served once

The only memory of the nonces a contract has been served with is its stored claim.
Two handlers can lose it: the list of open claims drops the claim of a contract that
the hub, asked anew, does not show as open, an error body included; and a settlement
event with nonce zero for a contract without a claim writes a blank claim under
contract `0`.  A claim that is dropped for good reason does no harm: the contract is
expired and not served any more.  `served_nonces_increase` says that the nonces
strictly increase as long as a contract whose claim was dropped is not found alive
again, and `nonce_served_twice` is what happens otherwise.
-/
namespace Arkeo.Sentinel
open Exec Text

variable {cr : Crypto} {cfg : Config} {hub : Hub} {s s' : State} {w w' : World} {k : ℕ}

/-- The nonces a contract was served with, on the strength of a claim. -/
def World.nonces (w : World) (k : ℕ) : List Int64 :=
  (w.served.filter fun c => decide (c.contractId = k) && !c.isOpen).map Charge.nonce

/-! ## The guard -/

/-- A look-up finds contract `k` unexpired. -/
def findsAlive (hub : Hub) (k : ℕ) (s : State) : Bool :=
  match memStoreGet hub k s with
  | (some c, t) => !c.isExpired t.blockHeight
  | (none, _) => false

/-- Contract `k` has been served and its claim has been removed since, yet one of the
two look-ups of a request finds it unexpired. -/
def revives (hub : Hub) (k : ℕ) (w : World) : Bool :=
  !(w.nonces k).isEmpty && (w.state.claims.lookup k).isNone &&
    (findsAlive hub k w.state || findsAlive hub k (memStoreGet hub k w.state).2)

/-- A settlement event that would write a blank claim. -/
def writesBlank (cfg : Config) (s : State) (e : Settlement) : Bool :=
  decide (e.provider = cfg.providerPubKey) && decide (e.nonce = 0) &&
    (s.claims.lookup e.contractId).isNone

/-- **The guard.**  No request revives contract `k`, and no event overwrites its claim
with a blank one. -/
def remembers (cr : Crypto) (cfg : Config) (hub : Hub) (k : ℕ) (w : World) : Action → Bool
  | .request r => decide (r.key cr cfg ≠ k) || !revives hub k w
  | .settled e => decide (k ≠ 0) || !writesBlank cfg w.state e
  | .newBlock _ es => decide (k ≠ 0) || es.all fun e => !writesBlank cfg w.state e
  | _ => true

/-- An event of the provider's settlement of nonce `n` on contract `k`. -/
def Settlement.Pays (cfg : Config) (k : ℕ) (n : Int64) (e : Settlement) : Prop :=
  e.provider = cfg.providerPubKey ∧ e.contractId = k ∧ e.nonce = n

/-- The action is what a claim with nonce `n` on contract `k` is marked for. -/
def Action.Pays (cfg : Config) (k : ℕ) (n : Int64) : Action → Prop
  | .settled e => e.Pays cfg k n
  | .newBlock _ es => ∃ e ∈ es, e.Pays cfg k n
  | .markClaimed id nonce => k = id ∧ n.toUInt64.toNat = nonce
  | _ => False

/-- An event of the action would write a blank claim. -/
def Action.writesBlank (cfg : Config) (s : State) : Action → Bool
  | .settled e => Sentinel.writesBlank cfg s e
  | .newBlock _ es => es.any fun e => Sentinel.writesBlank cfg s e
  | _ => false

/-! ## Steps that store no new claim -/

/-- The claim of contract `k` was there before; it may have been marked since, for what
`pays` says. -/
def Inherits (pays : ℕ → Int64 → Prop) (k : ℕ) (s s' : State) : Prop :=
  ∀ claim', s'.claims.lookup k = some claim' → ∃ claim, s.claims.lookup k = some claim ∧
    (claim' = claim ∨
      claim' = { claim with claimed := true } ∧ pays claim.contractId claim.nonce)

section
variable {pays pays' : ℕ → Int64 → Prop}

theorem Inherits.of_lookup (h : s'.claims.lookup k = s.claims.lookup k) : Inherits pays k s s' :=
  fun claim hl => ⟨claim, h.symm.trans hl, .inl rfl⟩

theorem Inherits.mono (h : Inherits pays k s s') (hp : ∀ j n, pays j n → pays' j n) :
    Inherits pays' k s s' := by
  intro claim' hl
  obtain ⟨claim, hc, h⟩ := h claim' hl
  exact ⟨claim, hc, h.imp_right fun ⟨he, hpay⟩ => ⟨he, hp _ _ hpay⟩⟩

theorem Inherits.trans {t : State} (h : Inherits pays k s t) (h' : Inherits pays k t s') :
    Inherits pays k s s' := by
  intro claim'' hl
  obtain ⟨claim', hc', h'⟩ := h' claim'' hl
  obtain ⟨claim, hc, h⟩ := h claim' hc'
  refine ⟨claim, hc, ?_⟩
  rcases h with rfl | ⟨rfl, hp⟩
  · exact h'
  · rcases h' with rfl | ⟨rfl, -⟩
    · exact .inr ⟨rfl, hp⟩
    · exact .inr ⟨rfl, hp⟩

/-- A claim of contract `k` was there before, with a nonce that is not greater. -/
def NonceKept (k : ℕ) (s s' : State) : Prop :=
  ∀ claim', s'.claims.lookup k = some claim' →
    ∃ claim, s.claims.lookup k = some claim ∧ claim.nonce ≤ claim'.nonce

theorem Inherits.nonceKept (h : Inherits pays k s s') : NonceKept k s s' := by
  intro claim' hl
  obtain ⟨claim, hc, rfl | ⟨rfl, -⟩⟩ := h claim' hl
  · exact ⟨_, hc, Int64.le_refl _⟩
  · exact ⟨claim, hc, Int64.le_refl _⟩

/-- Marking a stored claim. -/
theorem Inherits.mark {c : Claim} (hc : s.claims.lookup c.contractId = some c)
    (hp : pays c.contractId c.nonce) :
    Inherits pays k s (claimStoreSet { c with claimed := true } s) := by
  intro claim' hl
  rw [claimStoreSet_lookup] at hl
  split at hl
  · rename_i hk
    cases hl
    exact ⟨c, by rw [hk]; exact hc, .inr ⟨rfl, hp⟩⟩
  · exact ⟨claim', hl, .inl rfl⟩

theorem Inherits.remove (j : ℕ) : Inherits pays k s (claimStoreRemove j s) := by
  intro claim' hl
  rw [claimStoreRemove_lookup] at hl
  split at hl
  · cases hl
  · exact ⟨claim', hl, .inl rfl⟩

theorem inherits_visitClaim (hub : Hub) (acc : List Claim × State) (claim : Claim) :
    Inherits pays k acc.2 (visitClaim hub acc claim).2 := by
  have hget : Inherits pays k acc.2 (memStoreGet hub claim.contractId acc.2).2 :=
    .of_lookup (by rw [memStoreGet_claims])
  unfold visitClaim
  split
  · exact .of_lookup rfl
  split
  · rename_i hg
    rw [hg] at hget
    exact hget
  · rename_i hg
    rw [hg] at hget
    split
    · exact hget.trans (.remove _)
    · exact hget

theorem inherits_handleOpenClaims (hub : Hub) (s : State) :
    Inherits pays k s (handleOpenClaims hub s).2 := by
  have hfold : ∀ (claims : List Claim) (acc : List Claim × State),
      Inherits pays k acc.2 (claims.foldl (visitClaim hub) acc).2 := by
    intro claims
    induction claims with
    | nil => exact fun _ => .of_lookup rfl
    | cons claim claims ih => exact fun acc => (inherits_visitClaim hub acc claim).trans (ih _)
  exact hfold _ _

end

theorem inherits_handleMarkClaimed (hk : s.Keyed) (id nonce : ℕ) :
    Inherits (fun j n => (Action.markClaimed id nonce).Pays cfg j n) k s
      (handleMarkClaimed id nonce s) := by
  unfold handleMarkClaimed
  split
  · rename_i c hf
    obtain ⟨key, hl⟩ := mem_claimStoreList.mp (List.mem_of_find?_eq_some hf)
    have hpay := List.find?_some hf
    simp only [Bool.and_eq_true, decide_eq_true_eq] at hpay
    split
    · exact .of_lookup rfl
    · exact .mark (by rw [hk key c hl]; exact hl) hpay
  · exact .of_lookup rfl

theorem inherits_handleSettlement (hk : s.Keyed) {e : Settlement}
    (h : k ≠ 0 ∨ writesBlank cfg s e = false) :
    Inherits (fun j n => e.Pays cfg j n) k s (handleSettlement cfg e s) := by
  unfold handleSettlement claimStoreGet
  split
  · rename_i hp
    cases hl : s.claims.lookup e.contractId with
    | some c =>
      simp only [Option.getD_some]
      have hid := hk _ c hl
      split
      · rename_i hn
        exact .mark (by rw [hid]; exact hl) ⟨hp, hid.symm, hn.symm⟩
      · exact .of_lookup rfl
    | none =>
      simp only [Option.getD_none]
      split
      · rename_i hn
        -- the blank claim goes to contract `0`
        refine .of_lookup ?_
        rcases h with h | h
        · rw [claimStoreSet_lookup, if_neg h]
        · simp [writesBlank, hp, ← hn, hl] at h
      · exact .of_lookup rfl
  · exact .of_lookup rfl

/-- An event removes no claim. -/
theorem handleSettlement_isNone (e : Settlement) (j : ℕ)
    (h : (s.claims.lookup j).isNone = false) :
    ((handleSettlement cfg e s).claims.lookup j).isNone = false := by
  have hset : ∀ c, ((claimStoreSet c s).claims.lookup j).isNone = false := by
    intro c
    rw [claimStoreSet_lookup]
    split
    · rfl
    · exact h
  unfold handleSettlement
  split
  · simp only
    split
    · exact hset _
    · exact h
  · exact h

/-- No event of a block writes a blank claim if none would at its start. -/
theorem inherits_handleNewBlock (hk : s.Keyed) (height : Int64) {es : List Settlement}
    (h : k ≠ 0 ∨ ∀ e ∈ es, writesBlank cfg s e = false) :
    Inherits (fun j n => ∃ e ∈ es, e.Pays cfg j n) k s (handleNewBlock cfg height es s) := by
  have hfold : ∀ (es : List Settlement) (t : State), t.Keyed →
      (k ≠ 0 ∨ ∀ e ∈ es, writesBlank cfg t e = false) →
      Inherits (fun j n => ∃ e ∈ es, e.Pays cfg j n) k t
        (es.foldl (fun s e => handleSettlement cfg e s) t) := by
    intro es
    induction es with
    | nil => exact fun _ _ _ => .of_lookup rfl
    | cons e es ih =>
      intro t ht h
      have hhead : k ≠ 0 ∨ writesBlank cfg t e = false :=
        h.imp_right fun h => h e List.mem_cons_self
      have htail : k ≠ 0 ∨ ∀ e' ∈ es, writesBlank cfg (handleSettlement cfg e t) e' = false := by
        refine h.imp_right fun h e' he' => ?_
        have hblank := h e' (List.mem_cons_of_mem _ he')
        unfold writesBlank at hblank ⊢
        rw [Bool.and_eq_false_iff] at hblank ⊢
        exact hblank.imp_right (handleSettlement_isNone e e'.contractId)
      have hfirst := (inherits_handleSettlement ht hhead).mono
        fun j n hp => (⟨e, List.mem_cons_self, hp⟩ : ∃ e' ∈ e :: es, e'.Pays cfg j n)
      refine hfirst.trans ((ih _ (ht.handleSettlement cfg e) htail).mono ?_)
      rintro j n ⟨e', he', hp⟩
      exact ⟨e', List.mem_cons_of_mem _ he', hp⟩
  exact hfold es { s with blockHeight := height } hk h

/-- **A step that is no request stores no new claim**, unless it writes a blank one, and
serves nothing. -/
theorem step_inherits {a : Action} (hk : w.state.Keyed) (ha : ∀ r, a ≠ .request r)
    (hg : k ≠ 0 ∨ a.writesBlank cfg w.state = false) (hs : step cr cfg hub w a = some w') :
    Inherits (fun j n => a.Pays cfg j n) k w.state w'.state ∧ w'.served = w.served := by
  cases a with
  | request r => exact absurd rfl (ha r)
  | openClaims =>
    cases hs
    exact ⟨inherits_handleOpenClaims hub w.state, rfl⟩
  | markClaimed id nonce =>
    cases hs
    exact ⟨inherits_handleMarkClaimed hk id nonce, rfl⟩
  | manage id raw m =>
    cases hs
    exact ⟨.of_lookup (congrArg _ (handleContract_claims cr hub id raw m w.state)), rfl⟩
  | opened e =>
    cases hs
    exact ⟨.of_lookup (congrArg _ (handleOpenContract_claims cfg e w.state)), rfl⟩
  | closed id provider service client delegate =>
    cases hs
    exact ⟨.of_lookup (congrArg _
      (handleCloseContract_claims cfg id provider service client delegate w.state)), rfl⟩
  | settled e =>
    cases hs
    exact ⟨inherits_handleSettlement hk hg, rfl⟩
  | newBlock height es =>
    cases hs
    refine ⟨inherits_handleNewBlock hk height (hg.imp_right fun h e he => ?_), rfl⟩
    exact Bool.eq_false_iff.mpr (List.any_eq_false.mp h e he)
  | restart =>
    cases hs
    exact ⟨.of_lookup rfl, rfl⟩

/-! ## Requests -/

/-- The nonces served increase, and the stored claim has seen them all. -/
structure Increasing (k : ℕ) (w : World) : Prop where
  keyed : w.state.Keyed
  nonces : (w.nonces k).Pairwise (· < ·)
  seen : ∀ claim, w.state.claims.lookup k = some claim → ∀ n ∈ w.nonces k, n ≤ claim.nonce

/-- A step that serves nothing keeps the invariant if it keeps the nonce. -/
theorem Increasing.of_kept (h : Increasing k w) (hk : w'.state.Keyed)
    (hs : w'.served = w.served) (hkept : NonceKept k w.state w'.state) : Increasing k w' := by
  have hn : w'.nonces k = w.nonces k := by rw [World.nonces, hs, World.nonces]
  refine ⟨hk, hn ▸ h.nonces, ?_⟩
  intro claim' hl n hmem
  rw [hn] at hmem
  obtain ⟨claim, hc, hle⟩ := hkept claim' hl
  exact Int64.le_trans (h.seen claim hc n hmem) hle

/-- The paid tier stores a claim only for a contract that it finds unexpired. -/
theorem paidTier_claims_of_not_alive (cr : Crypto) (cfg : Config) {aa : ArkAuth} (limited : Bool)
    (h : findsAlive hub aa.contractId s = false) :
    (finalStore (paidTier cr cfg hub aa limited s)).claims = s.claims ∧
      ∀ charge t, paidTier cr cfg hub aa limited s = .ok charge t → charge.isOpen = true := by
  have hget := memStoreGet_claims hub aa.contractId s
  have hdead : ∀ c t, memStoreGet hub aa.contractId s = (some c, t) →
      ¬Admits c (aa.inferSpender c) limited t := by
    intro c t hg ha
    rw [findsAlive, hg] at h
    simp [ha.unexpired] at h
  have ho := paidTier_outcome cr cfg hub aa limited s
  generalize paidTier cr cfg hub aa limited s = r at ho
  cases ho with
  | refused e => exact ⟨hget, nofun⟩
  | openly c t hg ha _ => exact absurd ha (hdead c t hg)
  | stored c t u hg ha => exact absurd ha (hdead c t hg)

/-- **What a request does to the claims**: it leaves them alone, or it stores its own
on a contract that a look-up finds unexpired. -/
theorem auth_claims (cr : Crypto) (cfg : Config) (hub : Hub) (r : Request) (s : State) :
    ((auth cr cfg hub r s).2.claims = s.claims ∧
      ∀ charge, (auth cr cfg hub r s).1 = .paid charge → charge.isOpen = true) ∨
    ∃ aa, r.key cr cfg = aa.contractId ∧ s.Fresh aa ∧
      (findsAlive hub aa.contractId s = true ∨
        findsAlive hub aa.contractId (memStoreGet hub aa.contractId s).2 = true) ∧
      (auth cr cfg hub r s).2.claims = (s.withClaim cfg aa).claims ∧
      ∀ charge, (auth cr cfg hub r s).1 = .paid charge →
        charge = { contractId := aa.contractId, nonce := aa.nonce, isOpen := false } := by
  have hget := memStoreGet_claims hub (r.key cr cfg) s
  have ho := auth_outcome cr cfg hub r s
  generalize auth cr cfg hub r s = out at ho ⊢
  cases ho with
  | idle resp h => exact .inl ⟨rfl, fun charge hp => absurd hp (h charge)⟩
  | looked resp h => exact .inl ⟨hget, fun charge hp => absurd hp (h charge)⟩
  | whitelisted c t hg _ =>
    rw [hg] at hget
    refine .inl ⟨hget, ?_⟩
    rintro _ ⟨⟩
    rfl
  | tiered aa hkey t ht resp hresp =>
    rw [hkey] at hget
    have hclaims : t.claims = s.claims := by
      rcases ht with rfl | rfl
      · rfl
      · exact hget
    cases halive : findsAlive hub aa.contractId t with
    | false =>
      obtain ⟨hc, hopen⟩ := paidTier_claims_of_not_alive cr cfg r.limited halive
      refine .inl ⟨hc.trans hclaims, ?_⟩
      intro charge hp
      obtain ⟨u, hu⟩ := hresp charge hp
      exact hopen charge u hu
    | true =>
      rcases paidTier_claims cr cfg hub aa r.limited t with ⟨hc, hopen⟩ | ⟨c, hf, hc, hcharge⟩
      · refine .inl ⟨hc.trans hclaims, ?_⟩
        intro charge hp
        obtain ⟨u, hu⟩ := hresp charge hp
        exact hopen charge u hu
      · refine .inr ⟨aa.inferSpender c, by simpa using hkey, ?_, ?_, ?_, ?_⟩
        · intro claim hl
          exact hf claim (by rw [hclaims]; exact hl)
        · rw [ArkAuth.inferSpender_contractId]
          rcases ht with rfl | rfl
          · exact .inl halive
          · exact .inr halive
        · rw [hc]
          simp only [State.withClaim, claimStoreSet, hclaims]
        · intro charge hp
          obtain ⟨u, hu⟩ := hresp charge hp
          rw [hcharge charge u hu, ArkAuth.inferSpender_contractId, ArkAuth.inferSpender_nonce]

/-- The world after a request. -/
def World.answered (w : World) (out : Response × State) : World where
  state := out.2
  served := match out.1 with
    | .paid charge => w.served ++ [charge]
    | _ => w.served

/-- Serving a charge adds its nonce, if it is one on contract `k` by claim. -/
theorem nonces_answered (w : World) (out : Response × State) (k : ℕ) :
    (w.answered out).nonces k = w.nonces k ∨
      ∃ charge, out.1 = .paid charge ∧ charge.contractId = k ∧ charge.isOpen = false ∧
        (w.answered out).nonces k = w.nonces k ++ [charge.nonce] := by
  obtain ⟨resp, t⟩ := out
  cases resp with
  | paid charge =>
    by_cases hc : charge.contractId = k ∧ charge.isOpen = false
    · refine .inr ⟨charge, rfl, hc.1, hc.2, ?_⟩
      simp [World.nonces, World.answered, hc]
    · refine .inl ?_
      have hc' : (decide (charge.contractId = k) && !charge.isOpen) = false := by
        simpa using hc
      simp [World.nonces, World.answered, List.filter_append, hc']
  | preflight => exact .inl rfl
  | refused code => exact .inl rfl
  | aborted => exact .inl rfl
  | free => exact .inl rfl

theorem Increasing.answered (h : Increasing k w) {r : Request}
    (hg : r.key cr cfg ≠ k ∨ revives hub k w = false) :
    Increasing k (w.answered (auth cr cfg hub r w.state)) := by
  have hkeyed : (w.answered (auth cr cfg hub r w.state)).state.Keyed := h.keyed.auth cr cfg hub r
  rcases auth_claims cr cfg hub r w.state with ⟨hc, hopen⟩ | ⟨aa, hkey, hf, halive, hc, hcharge⟩
  · -- nothing is stored and nothing is served by claim
    have hn : (w.answered (auth cr cfg hub r w.state)).nonces k = w.nonces k := by
      rcases nonces_answered w (auth cr cfg hub r w.state) k with hn | ⟨charge, hp, -, ho, -⟩
      · exact hn
      · rw [hopen charge hp] at ho
        cases ho
    refine ⟨hkeyed, hn ▸ h.nonces, ?_⟩
    intro claim hl n hmem
    rw [hn] at hmem
    exact h.seen claim (hc ▸ hl) n hmem
  have hlookup := h.keyed.withClaim_lookup cfg aa k
  rw [← hc] at hlookup
  by_cases hk : k = aa.contractId
  · -- the new nonce exceeds all that were served
    have hnew : ∀ n ∈ w.nonces k, n < aa.nonce := by
      intro n hmem
      cases hl : w.state.claims.lookup k with
      | some claim =>
        rw [hk] at hl
        exact Int64.lt_of_le_of_lt (h.seen claim (hk ▸ hl) n hmem) (hf claim hl)
      | none =>
        have hrev : revives hub k w = true := by
          rw [← hk] at halive
          have hne : (w.nonces k).isEmpty = false :=
            List.isEmpty_eq_false_iff_exists_mem.mpr ⟨n, hmem⟩
          simp only [revives, hne, hl, Bool.or_eq_true, Bool.not_false, Option.isNone_none,
            Bool.and_self, Bool.true_and]
          exact halive
        rcases hg with hg | hg
        · exact absurd (hkey.trans hk.symm) hg
        · rw [hrev] at hg
          cases hg
    rw [if_pos hk] at hlookup
    have hseen : ∀ claim, (w.answered (auth cr cfg hub r w.state)).state.claims.lookup k =
        some claim → claim.nonce = aa.nonce := by
      intro claim hl
      cases hlookup.symm.trans hl
      rfl
    rcases nonces_answered w (auth cr cfg hub r w.state) k with hn | ⟨charge, hp, -, -, hn⟩
    · refine ⟨hkeyed, hn ▸ h.nonces, ?_⟩
      intro claim hl n hmem
      rw [hn] at hmem
      rw [hseen claim hl]
      exact Int64.le_of_lt (hnew n hmem)
    · rw [hcharge charge hp] at hn
      refine ⟨hkeyed, ?_, ?_⟩
      · rw [hn, List.pairwise_append]
        refine ⟨h.nonces, List.pairwise_singleton _ _, ?_⟩
        intro n hmem m hm
        rw [List.mem_singleton.mp hm]
        exact hnew n hmem
      · intro claim hl n hmem
        rw [hn] at hmem
        rw [hseen claim hl]
        rcases List.mem_append.mp hmem with hmem | hmem
        · exact Int64.le_of_lt (hnew n hmem)
        · rw [List.mem_singleton.mp hmem]
          exact Int64.le_refl _
  · have hn : (w.answered (auth cr cfg hub r w.state)).nonces k = w.nonces k := by
      rcases nonces_answered w (auth cr cfg hub r w.state) k with hn | ⟨charge, hp, hid, -, -⟩
      · exact hn
      · rw [hcharge charge hp] at hid
        exact absurd hid.symm hk
    rw [if_neg hk] at hlookup
    refine ⟨hkeyed, hn ▸ h.nonces, ?_⟩
    intro claim hl n hmem
    rw [hn] at hmem
    exact h.seen claim (hlookup.symm.trans hl) n hmem

theorem step_increasing {a : Action} (h : Increasing k w)
    (hg : remembers cr cfg hub k w a = true) (hs : step cr cfg hub w a = some w') :
    Increasing k w' := by
  have hkeyed := step_keyed h.keyed hs
  have hother : (∀ r, a ≠ .request r) → k ≠ 0 ∨ a.writesBlank cfg w.state = false →
      Increasing k w' := by
    intro ha hblank
    obtain ⟨hkept, hserved⟩ := step_inherits h.keyed ha hblank hs
    exact h.of_kept hkeyed hserved hkept.nonceKept
  cases a with
  | request r =>
    cases hs
    refine h.answered ?_
    simpa [remembers] using hg
  | settled e =>
    refine hother nofun ?_
    simpa [remembers, Action.writesBlank] using hg
  | newBlock height es =>
    refine hother nofun ?_
    simpa [remembers, Action.writesBlank] using hg
  | openClaims => exact hother nofun (.inr rfl)
  | markClaimed id nonce => exact hother nofun (.inr rfl)
  | manage id raw m => exact hother nofun (.inr rfl)
  | opened e => exact hother nofun (.inr rfl)
  | closed id provider service client delegate => exact hother nofun (.inr rfl)
  | restart => exact hother nofun (.inr rfl)

/-- **No nonce is served twice.**  In a run that does not revive a contract whose claim
is gone, the nonces with which requests on it are served strictly increase. -/
theorem served_nonces_increase {actions : List Action}
    (hg : Runs.Guarded (step cr cfg hub) (fun w a => remembers cr cfg hub k w a = true) {} actions)
    (hrun : Runs.run (step cr cfg hub) {} actions = some w) :
    (w.nonces k).Pairwise (· < ·) := by
  have hinit : Increasing k {} := by
    refine ⟨?_, List.Pairwise.nil, ?_⟩
    · intro _ _ hl
      cases hl
    · intro _ hl
      cases hl
  exact (Runs.run_induct_of_guarded (fun _ _ _ h hg hs => step_increasing h hg hs) hinit hg
    hrun).nonces

namespace Sample

/-- The client's query and, with a greater nonce, the stranger's. -/
def clientQuery : Action := .request { arkauth := clientHeader }

def strangerQuery : Action := .request { arkauth := strangerHeader }

theorem clientQuery_fetched :
    ({ arkauth := clientHeader } : Request).fetchArkAuth crypto config = some clientAuth :=
  client_fetched rfl rfl

theorem strangerQuery_fetched :
    ({ arkauth := strangerHeader } : Request).fetchArkAuth crypto config = some strangerAuth :=
  stranger_fetched rfl rfl

theorem clientQuery_key : ({ arkauth := clientHeader } : Request).key crypto config = 2 := by
  rw [Request.key, clientQuery_fetched]
  rfl

theorem strangerQuery_key : ({ arkauth := strangerHeader } : Request).key crypto config = 2 := by
  rw [Request.key, strangerQuery_fetched]
  rfl

/-- A hub that knows the contract. -/
def knowing : Hub := fun _ _ => some answer

/-- A hub whose first answer is an error body, read as a contract without a term. -/
def stuttering : Hub := fun n _ => if n = 0 then some {} else some answer

/-- A query is served, the sentinel is restarted and the provider looks at the open
claims. -/
def restarted : List Action :=
  [.newBlock 1 [], .opened opening, clientQuery, .restart, .newBlock 1 [], .openClaims]

end Sample

/-- Two queries are served with a restart between them; a third comes when the
contract is over and its claim dropped. -/
theorem nonces_increase_over_restart : ∃ w,
    Runs.run (step Sample.crypto Sample.config Sample.knowing) {}
      (Sample.restarted ++ [Sample.strangerQuery, .newBlock 5 [], .openClaims,
        Sample.clientQuery]) = some w ∧
    w.nonces 2 = [5, 7] ∧ (w.nonces 2).Pairwise (· < ·) := by
  -- the headers are not parsed again at every request
  have hguard : Runs.Guarded (step Sample.crypto Sample.config Sample.knowing)
      (fun w a => remembers Sample.crypto Sample.config Sample.knowing 2 w a = true) {}
      (Sample.restarted ++ [Sample.strangerQuery, .newBlock 5 [], .openClaims,
        Sample.clientQuery]) := by
    simp only [Sample.restarted, List.cons_append, List.nil_append, Runs.Guarded,
      Sample.clientQuery, Sample.strangerQuery, step, auth, Sample.clientQuery_fetched,
      Sample.strangerQuery_fetched, remembers, Sample.clientQuery_key, Sample.strangerQuery_key,
      Option.some.injEq, forall_eq']
    decide +kernel
  have hnonces : (Runs.run (step Sample.crypto Sample.config Sample.knowing) {}
      (Sample.restarted ++ [Sample.strangerQuery, .newBlock 5 [], .openClaims,
        Sample.clientQuery])).map (World.nonces · 2) = some [5, 7] := by
    simp only [Sample.restarted, List.cons_append, List.nil_append, Runs.run, Sample.clientQuery,
      Sample.strangerQuery, step, auth, Sample.clientQuery_fetched, Sample.strangerQuery_fetched]
    decide +kernel
  obtain ⟨w, hw, hn⟩ := Option.map_eq_some_iff.mp hnonces
  exact ⟨w, hw, hn, served_nonces_increase hguard hw⟩

/-- **A nonce is served twice.**  After a restart the hub answers the provider's look at
the open claims with an error body; the claim is dropped, and the client's query is
served again. -/
theorem nonce_served_twice : ∃ w,
    Runs.run (step Sample.crypto Sample.config Sample.stuttering) {}
      (Sample.restarted ++ [Sample.clientQuery]) = some w ∧
    w.nonces 2 = [5, 5] ∧ ¬(w.nonces 2).Pairwise (· < ·) := by
  have hnonces : (Runs.run (step Sample.crypto Sample.config Sample.stuttering) {}
      (Sample.restarted ++ [Sample.clientQuery])).map (World.nonces · 2) = some [5, 5] := by
    simp only [Sample.restarted, List.cons_append, List.nil_append, Runs.run, Sample.clientQuery,
      step, auth, Sample.clientQuery_fetched]
    decide +kernel
  obtain ⟨w, hw, hn⟩ := Option.map_eq_some_iff.mp hnonces
  refine ⟨w, hw, hn, ?_⟩
  rw [hn]
  decide

end Arkeo.Sentinel
