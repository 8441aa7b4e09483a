import Arkeo.Runs
import Arkeo.Sentinel.Spec

/-! # The store of claims

What each step does to the stored claims.  A claim is always stored under the id
of its own contract (`reachable_keyed`): a write replaces the claim of one contract
and leaves the others alone.
-/
namespace Arkeo.Sentinel
open Exec Text

variable {cr : Crypto} {cfg : Config} {hub : Hub} {s s' : State} {w w' : World} {k : ℕ}

/-! ## The memory leaves the claims alone -/

/-- A contract that is fetched goes to the memory only. -/
@[simp] theorem fetchAndCache_claims (hub : Hub) (k : ℕ) (s : State) :
    (fetchAndCache hub k s).2.claims = s.claims := by
  unfold fetchAndCache fetchContract
  cases hub s.fetches k with
  | none => rfl
  | some r =>
    simp only [Option.map_some]
    split <;> rfl

/-- Looking a contract up may fetch it, and stores no claim. -/
@[simp] theorem memStoreGet_claims (hub : Hub) (k : ℕ) (s : State) :
    (memStoreGet hub k s).2.claims = s.claims := by
  unfold memStoreGet
  split
  · split
    · exact fetchAndCache_claims hub k s
    · rfl
  · exact fetchAndCache_claims hub k s

@[simp] theorem memStorePut_claims (c : CachedContract) (s : State) :
    (memStorePut c s).claims = s.claims := rfl

@[simp] theorem configSet_claims (conf : ContractConfiguration) (s : State) :
    (configSet conf s).claims = s.claims := rfl

/-- The settings of a contract are kept apart from its claim, for whatever method. -/
theorem handleContract_claims (cr : Crypto) (hub : Hub) (id raw : String) (m : Method)
    (s : State) : (handleContract cr hub id raw m s).2.claims = s.claims := by
  unfold handleContract
  split
  · simp only
    split
    · rfl
    rename_i id auth _ _ _
    have hc := memStoreGet_claims hub (configGet id s).contractId s
    split
    · rename_i hg
      rw [hg] at hc
      exact hc
    · rename_i hg
      rw [hg] at hc
      split
      · exact hc
      · cases m with
        | get => exact hc
        | post ips => cases ips <;> exact hc
        | other => exact hc
  · rfl

/-- The notices of openings and closings are about the memory. -/
theorem handleOpenContract_claims (cfg : Config) (e : EventOpenContract) (s : State) :
    (handleOpenContract cfg e s).claims = s.claims := by
  unfold handleOpenContract
  split <;> rfl

theorem handleCloseContract_claims (cfg : Config) (id : ℕ) (provider : PubKey) (service : String)
    (client delegate : PubKey) (s : State) :
    (handleCloseContract cfg id provider service client delegate s).claims = s.claims := by
  unfold handleCloseContract
  split <;> rfl

/-! ## Writes -/

/-- A write replaces the claim of its contract. -/
theorem claimStoreSet_lookup (c : Claim) (s : State) (k : ℕ) :
    (claimStoreSet c s).claims.lookup k =
      if k = c.contractId then some c else s.claims.lookup k := by
  unfold claimStoreSet
  simp only
  by_cases hk : k = c.contractId
  · rw [if_pos hk, hk, AList.lookup_insert]
  · rw [if_neg hk, AList.lookup_insert_ne hk]

/-- A removal takes away the claim of one contract. -/
theorem claimStoreRemove_lookup (j : ℕ) (s : State) (k : ℕ) :
    (claimStoreRemove j s).claims.lookup k = if k = j then none else s.claims.lookup k := by
  unfold claimStoreRemove
  simp only
  by_cases hk : k = j
  · rw [if_pos hk, hk, AList.lookup_erase]
  · rw [if_neg hk, AList.lookup_erase_ne hk]

/-- Every claim is stored under the id of its contract. -/
def State.Keyed (s : State) : Prop :=
  ∀ k claim, s.claims.lookup k = some claim → claim.contractId = k

/-- Only the claims count. -/
theorem State.Keyed.of_eq (h : s.Keyed) (he : s'.claims = s.claims) : s'.Keyed := by
  intro k claim hl
  rw [he] at hl
  exact h k claim hl

/-- A write keeps the keys, since it takes its key from the claim. -/
theorem State.Keyed.set (h : s.Keyed) (c : Claim) : (claimStoreSet c s).Keyed := by
  intro k claim hl
  rw [claimStoreSet_lookup] at hl
  split at hl
  · rename_i hk
    cases hl
    exact hk.symm
  · exact h k claim hl

theorem State.Keyed.remove (h : s.Keyed) (j : ℕ) : (claimStoreRemove j s).Keyed := by
  intro k claim hl
  rw [claimStoreRemove_lookup] at hl
  split at hl
  · cases hl
  · exact h k claim hl

/-- The claim of a request is stored under the request's contract. -/
theorem State.Keyed.claimFor_contractId (h : s.Keyed) (cfg : Config) (aa : ArkAuth) :
    (claimFor cfg aa (s.claims.lookup aa.contractId)).contractId = aa.contractId := by
  cases hl : s.claims.lookup aa.contractId with
  | none => rfl
  | some claim => exact h _ claim hl

/-- What a request stores, and what it leaves. -/
theorem State.Keyed.withClaim_lookup (h : s.Keyed) (cfg : Config) (aa : ArkAuth) (k : ℕ) :
    (s.withClaim cfg aa).claims.lookup k =
      if k = aa.contractId then some (claimFor cfg aa (s.claims.lookup aa.contractId))
      else s.claims.lookup k := by
  rw [State.withClaim, claimStoreSet_lookup, h.claimFor_contractId]

/-! ## The paid tier -/

/-- **What a request does to the claims**: nothing, or it stores its own. -/
theorem paidTier_claims (cr : Crypto) (cfg : Config) (hub : Hub) (aa : ArkAuth) (limited : Bool)
    (s : State) :
    ((finalStore (paidTier cr cfg hub aa limited s)).claims = s.claims ∧
      ∀ charge t, paidTier cr cfg hub aa limited s = .ok charge t → charge.isOpen = true) ∨
    ∃ c, s.Fresh (aa.inferSpender c) ∧
      (finalStore (paidTier cr cfg hub aa limited s)).claims =
        (s.withClaim cfg (aa.inferSpender c)).claims ∧
      ∀ charge t, paidTier cr cfg hub aa limited s = .ok charge t →
        charge = { contractId := aa.contractId, nonce := aa.nonce, isOpen := false } := by
  have hget := memStoreGet_claims hub aa.contractId s
  generalize hp : paidTier cr cfg hub aa limited s = r
  have ho := paidTier_outcome cr cfg hub aa limited s
  rw [hp] at ho
  cases ho with
  | refused e => exact .inl ⟨hget, nofun⟩
  | openly c t hg ha ho =>
    rw [hg] at hget
    refine .inl ⟨hget, ?_⟩
    rintro _ _ ⟨⟩
    rfl
  | stored c t u hg ha ho hsig hf hu _ hr =>
    rw [hg] at hget
    have hclaims : u.claims = (s.withClaim cfg (aa.inferSpender c)).claims := by
      replace hget : t.claims = s.claims := hget
      rw [hu, memStorePut_claims]
      simp only [State.withClaim, claimStoreSet, hget]
    refine .inr ⟨c, fun claim hl => hf claim (by rw [hget]; exact hl), ?_, ?_⟩
    · rcases hr with ⟨-, rfl⟩ | rfl
      · exact hclaims
      · exact hclaims
    · intro charge v hok
      rcases hr with ⟨-, rfl⟩ | rfl
      · cases hok
        rfl
      · cases hok

/-! ## Every step keeps the keys -/

/-- The paid tier stores at most the claim of its request. -/
theorem State.Keyed.paidTier (h : s.Keyed) (cr : Crypto) (cfg : Config) (hub : Hub) (aa : ArkAuth)
    (limited : Bool) : (finalStore (paidTier cr cfg hub aa limited s)).Keyed := by
  rcases paidTier_claims cr cfg hub aa limited s with ⟨hc, -⟩ | ⟨c, -, hc, -⟩
  · exact h.of_eq hc
  · exact State.Keyed.of_eq (h.set _) hc

/-- Whichever way a request goes, it looks contracts up and ends in the paid tier or without one. -/
theorem State.Keyed.auth (h : s.Keyed) (cr : Crypto) (cfg : Config) (hub : Hub) (r : Request) :
    (auth cr cfg hub r s).2.Keyed := by
  have hget : ∀ k, (memStoreGet hub k s).2.Keyed := fun k => h.of_eq (memStoreGet_claims hub k s)
  have ho := auth_outcome cr cfg hub r s
  generalize Sentinel.auth cr cfg hub r s = out at ho ⊢
  cases ho with
  | idle resp hresp => exact h
  | looked resp hresp => exact hget _
  | whitelisted c t hg hw =>
    have hk := hget (r.key cr cfg)
    rw [hg] at hk
    exact hk
  | tiered aa hk t ht resp hresp =>
    refine State.Keyed.paidTier ?_ cr cfg hub aa r.limited
    rcases ht with rfl | rfl
    · exact h
    · exact hget _

/-- The visit of a claim may remove that of the same contract. -/
theorem State.Keyed.visitClaim {acc : List Claim × State} (h : acc.2.Keyed) (hub : Hub)
    (claim : Claim) : (visitClaim hub acc claim).2.Keyed := by
  unfold Sentinel.visitClaim
  split
  · exact h
  have hget : (memStoreGet hub claim.contractId acc.2).2.Keyed :=
    h.of_eq (memStoreGet_claims hub claim.contractId acc.2)
  split
  · rename_i hg
    rw [hg] at hget
    exact hget
  · rename_i hg
    rw [hg] at hget
    split
    · exact hget.remove _
    · exact hget

/-- The list of open claims is an induction on the claims it visits. -/
theorem State.Keyed.handleOpenClaims (h : s.Keyed) (hub : Hub) :
    (handleOpenClaims hub s).2.Keyed := by
  unfold Sentinel.handleOpenClaims
  generalize claimStoreList s = claims
  have hfold : ∀ acc : List Claim × State, acc.2.Keyed →
      (claims.foldl (Sentinel.visitClaim hub) acc).2.Keyed := by
    induction claims with
    | nil => exact fun _ hacc => hacc
    | cons claim claims ih => exact fun acc hacc => ih _ (hacc.visitClaim hub claim)
  exact hfold ([], s) h

/-- The mark writes back the claim that it has read. -/
theorem State.Keyed.handleMarkClaimed (h : s.Keyed) (id nonce : ℕ) :
    (handleMarkClaimed id nonce s).Keyed := by
  unfold Sentinel.handleMarkClaimed
  split
  · split
    · exact h
    · exact h.set _
  · exact h

/-- A settlement marks the stored claim. -/
theorem State.Keyed.handleSettlement (h : s.Keyed) (cfg : Config) (e : Settlement) :
    (handleSettlement cfg e s).Keyed := by
  unfold Sentinel.handleSettlement
  split
  · simp only
    split
    · exact h.set _
    · exact h
  · exact h

/-- A block is its height and then its settlements, one by one. -/
theorem State.Keyed.handleNewBlock (h : s.Keyed) (cfg : Config) (height : Int64)
    (es : List Settlement) : (handleNewBlock cfg height es s).Keyed := by
  unfold Sentinel.handleNewBlock
  have hs : State.Keyed { s with blockHeight := height } := h
  revert hs
  generalize { s with blockHeight := height } = t
  intro ht
  induction es generalizing t with
  | nil => exact ht
  | cons e es ih => exact ih _ (ht.handleSettlement cfg e)

/-- **One step**, whichever it is. -/
theorem step_keyed {a : Action} (h : w.state.Keyed) (hs : step cr cfg hub w a = some w') :
    w'.state.Keyed := by
  cases a with
  | request r =>
    cases hs
    exact h.auth cr cfg hub r
  | openClaims =>
    cases hs
    exact h.handleOpenClaims hub
  | markClaimed id nonce =>
    cases hs
    exact h.handleMarkClaimed id nonce
  | manage id raw m =>
    cases hs
    exact h.of_eq (handleContract_claims cr hub id raw m w.state)
  | opened e =>
    cases hs
    exact h.of_eq (handleOpenContract_claims cfg e w.state)
  | closed id provider service client delegate =>
    cases hs
    exact h.of_eq (handleCloseContract_claims cfg id provider service client delegate w.state)
  | settled e =>
    cases hs
    exact h.handleSettlement cfg e
  | newBlock height es =>
    cases hs
    exact h.handleNewBlock cfg height es
  | restart =>
    cases hs
    exact h

/-- **Claims are stored under their own contracts**, in every state the sentinel
reaches. -/
theorem reachable_keyed {actions : List Action}
    (h : Runs.run (step cr cfg hub) {} actions = some w) : w.state.Keyed :=
  Runs.run_induct (P := fun w => w.state.Keyed) (fun _ _ _ hk hs => step_keyed hk hs)
    (fun _ _ hl => by cases hl) h

end Arkeo.Sentinel
