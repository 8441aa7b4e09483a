import Arkeo.Sentinel.Gate
import Arkeo.Sentinel.Replay

/-! # Where the stored claims come from

A stored claim should be that of a request that was served, under the id of its
contract, and be marked only when it has been paid since.  Three things can go wrong.
The chain also settles contracts that were never used, with nonce zero: the handlers
read the zero claim for one without a claim, find its nonce equal and write it back,
marked, under contract `0`.  A request may name contract `0`.  And the paid tier stores
the claim before it computes the usage it logs, which panics on amounts that are nil or
too large: the claim is there, and the request is not served.

`claims_integral_iff` says that nothing else goes wrong.
-/
namespace Arkeo.Sentinel
open Exec Text

variable {cr : Crypto} {cfg : Config} {hub : Hub} {s s' : State} {w w' : World} {k : ℕ}
  {aa : ArkAuth} {r : Request} {c : CachedContract} {claim claim' : Claim}
  {actions : List Action}

/-- `Claim.Key`. -/
def Claim.key (c : Claim) : String := toString c.contractId

/-- The claim comes from request `r`, which was taken in world `v` with `later` after it. -/
structure ComesFrom (cr : Crypto) (cfg : Config) (hub : Hub) (claim : Claim) (v : World)
    (r : Request) (later : List Action) : Prop where
  credentials : ∃ aa, r.fetchArkAuth cr cfg = some aa ∧ aa.contractId = claim.contractId ∧
    aa.nonce = claim.nonce ∧ hexEncode aa.signature = claim.signature
  served : (auth cr cfg hub r v.state).1 =
    .paid { contractId := claim.contractId, nonce := claim.nonce, isOpen := false }
  /-- Up to its mark, it has been in the store since. -/
  stays : ∀ l l' u, later = l ++ l' →
    Runs.run (step cr cfg hub) v (.request r :: l) = some u →
      ∃ c, u.state.claims.lookup claim.contractId = some c ∧
        { c with claimed := claim.claimed } = claim
  paid : claim.claimed = true → ∃ a ∈ later, a.Pays cfg claim.contractId claim.nonce

/-- What is expected of a stored claim after a list of actions. -/
structure Accounted (cr : Crypto) (cfg : Config) (hub : Hub) (actions : List Action) (k : ℕ)
    (claim : Claim) : Prop where
  key : toString k = claim.key
  positive : 1 ≤ claim.contractId
  origin : ∃ before r later v, actions = before ++ .request r :: later ∧
    Runs.run (step cr cfg hub) {} before = some v ∧ ComesFrom cr cfg hub claim v r later

/-- **The store is sound**: every claim is accounted for. -/
def Integral (cr : Crypto) (cfg : Config) (hub : Hub) (actions : List Action) (w : World) : Prop :=
  ∀ k claim, w.state.claims.lookup k = some claim → Accounted cr cfg hub actions k claim

/-! ## Requests that become claims -/

/-- The request passes the tests of `auth` and of the paid tier, with credentials `aa` and
on a contract `c` that is not open. -/
structure Stores (cr : Crypto) (cfg : Config) (hub : Hub) (r : Request) (s : State) (aa : ArkAuth)
    (c : CachedContract) : Prop where
  request : r.isOptions = false
  readable : r.fetchArkAuth cr cfg = some aa
  eligible : ∃ c' t, contractOf hub aa s = (some c', t) ∧ Eligible cr cfg aa c' r t ∧
    ∃ u, memStoreGet hub aa.contractId t = (some c, u) ∧ Admits c (aa.inferSpender c) r.limited u
  closed : c.isOpenAuthorization = false
  signed : (aa.inferSpender c).Signed cr
  fresh : s.Fresh (aa.inferSpender c)

/-- **The guard.**  No event of the action writes a blank claim, and a request becomes a
claim only on a contract that has an id and amounts that can be logged. -/
def Accounts (cr : Crypto) (cfg : Config) (hub : Hub) (w : World) : Action → Prop
  | .request r => ∀ aa c, Stores cr cfg hub r w.state aa c → aa.contractId ≠ 0 ∧ c.Loggable
  | a => a.writesBlank cfg w.state = false

theorem contractOf_claims (hub : Hub) (aa : ArkAuth) (s : State) :
    (contractOf hub aa s).2.claims = s.claims := by
  unfold contractOf
  split
  · exact memStoreGet_claims hub _ s
  · rfl

/-- Only an eligible request gets to the paid tier. -/
theorem authReadable_cases (cr : Crypto) (cfg : Config) (hub : Hub) (aa : ArkAuth) (r : Request)
    (s : State) :
    (authReadable cr cfg hub aa r s).2.claims = s.claims ∨
      ∃ c t, contractOf hub aa s = (some c, t) ∧ Eligible cr cfg aa c r t := by
  have hclaims := contractOf_claims hub aa s
  unfold authReadable
  rcases hfound : contractOf hub aa s with ⟨found, t⟩
  rw [hfound] at hclaims
  simp only
  split
  · exact .inl hclaims
  rename_i hcur
  split
  · exact .inl hclaims
  rename_i hsig
  split
  · rename_i hent
    simp only [Bool.and_eq_true, Bool.or_eq_true, decide_eq_true_eq] at hcur hsig hent
    obtain ⟨c, rfl⟩ := Option.isSome_iff_exists.mp hent.1
    cases hm : serviceMatches cfg c r with
    | true => exact .inr ⟨c, t, rfl, fun ⟨h₁, h₂, h₃⟩ => hcur ⟨⟨h₁, h₂⟩, h₃⟩, hsig, hent.2, hm⟩
    | false =>
      simp only [Option.getD_some, authPaid, hm, Bool.false_eq_true, if_false]
      exact .inl hclaims
  · split
    · exact .inl hclaims
    split
    · exact .inl hclaims
    · exact .inl hclaims

theorem authReadable_of_eligible {t : State} (hfirst : contractOf hub aa s = (some c, t))
    (he : Eligible cr cfg aa c r t) :
    authReadable cr cfg hub aa r s = authPaid cr cfg hub aa c r t := by
  obtain ⟨hcur, hsig, hent⟩ := he.tests
  unfold authReadable
  rw [hfirst]
  simp only [Option.getD_some, Option.isSome_some, Bool.true_and]
  rw [if_neg hcur, if_neg hsig, if_pos hent]

/-- A claim on a contract with amounts that cannot be logged is stored, and the request
is aborted. -/
theorem paidTier_aborts (cfg : Config) {limited : Bool} {t : State}
    (hget : memStoreGet hub aa.contractId s = (some c, t))
    (ha : Admits c (aa.inferSpender c) limited t) (ho : c.isOpenAuthorization = false)
    (hs : (aa.inferSpender c).Signed cr) (hf : t.Fresh (aa.inferSpender c)) (hl : ¬c.Loggable) :
    paidTier cr cfg hub aa limited s = .error .panic
      (memStorePut { c with nonce := aa.nonce } (t.withClaim cfg (aa.inferSpender c))) := by
  have hlog := (logUsage_cases c (aa.inferSpender c).nonce
    (t.withClaim cfg (aa.inferSpender c))).resolve_left hl
  rw [ArkAuth.inferSpender_nonce] at hlog
  rw [paidTier_eq hget]
  refine bind_error.mpr (.inr ⟨(), t, checkContract_ok.mpr ⟨ha, rfl⟩, ?_⟩)
  rw [if_neg (by rw [ho]; exact Bool.false_ne_true)]
  refine bind_error.mpr (.inr ⟨(), t, checkSignature_ok.mpr ⟨hs, rfl⟩, ?_⟩)
  refine bind_error.mpr (.inr ⟨(), _, storeClaim_of_fresh cfg hf, bind_error.mpr (.inl ?_)⟩)
  rw [ArkAuth.inferSpender_nonce]
  exact hlog

/-- **What a request does to the claims**: nothing, or it becomes one. -/
theorem auth_stores (cr : Crypto) (cfg : Config) (hub : Hub) (r : Request) (s : State) :
    (auth cr cfg hub r s).2.claims = s.claims ∨ ∃ aa c, Stores cr cfg hub r s aa c := by
  unfold auth
  cases hopt : r.isOptions with
  | true => exact .inl rfl
  | false =>
    simp only [Bool.false_eq_true, if_false]
    cases haa : r.fetchArkAuth cr cfg with
    | none =>
      have hget := memStoreGet_claims hub r.fallbackId s
      refine .inl ?_
      simp only [authUnreadable]
      split
      · rename_i hg
        rw [hg] at hget
        split
        · exact hget
        · exact hget
      · rename_i hg
        rw [hg] at hget
        exact hget
    | some aa =>
      rcases authReadable_cases cr cfg hub aa r s with h | ⟨c', t, hfirst, he⟩
      · exact .inl h
      have ht : t.claims = s.claims := by
        have h := contractOf_claims hub aa s
        rw [hfirst] at h
        exact h
      simp only
      rw [authReadable_of_eligible hfirst he]
      have hstate : (authPaid cr cfg hub aa c' r t).2 =
          finalStore (paidTier cr cfg hub aa r.limited t) := by
        unfold authPaid
        rw [if_pos he.matching]
        cases paidTier cr cfg hub aa r.limited t with
        | ok charge u => rfl
        | error e u => cases e <;> rfl
      rw [hstate]
      have hget := memStoreGet_claims hub aa.contractId t
      have ho := paidTier_outcome cr cfg hub aa r.limited t
      generalize paidTier cr cfg hub aa r.limited t = out at ho ⊢
      cases ho with
      | refused e => exact .inl (hget.trans ht)
      | openly c u hg ha ho =>
        rw [hg] at hget
        exact .inl (hget.trans ht)
      | stored c u _ hg ha ho hsig hf =>
        rw [hg] at hget
        refine .inr ⟨aa, c, hopt, haa, ⟨c', t, hfirst, he, u, hg, ha⟩, ho, hsig, ?_⟩
        intro claim hl
        exact hf claim (by rw [hget, ht]; exact hl)

/-- The claim is in the store, and the request is served if its amounts can be logged. -/
theorem Stores.effect (h : Stores cr cfg hub r s aa c) :
    (auth cr cfg hub r s).2.claims = (s.withClaim cfg (aa.inferSpender c)).claims ∧
      (c.Loggable → (auth cr cfg hub r s).1 =
        .paid { contractId := aa.contractId, nonce := aa.nonce, isOpen := false }) ∧
      (¬c.Loggable → (auth cr cfg hub r s).1 = .aborted) := by
  obtain ⟨hopt, haa, ⟨c', t, hfirst, he, u, hget, ha⟩, hclosed, hsig, hf⟩ := h
  have hu : u.claims = s.claims := by
    have h := contractOf_claims hub aa s
    rw [hfirst] at h
    have h' := memStoreGet_claims hub aa.contractId t
    rw [hget] at h'
    exact h'.trans h
  have hfresh : u.Fresh (aa.inferSpender c) := fun claim hl => hf claim (by rw [← hu]; exact hl)
  have hauth : auth cr cfg hub r s = authPaid cr cfg hub aa c' r t := by
    unfold auth
    rw [hopt]
    simp only [Bool.false_eq_true, if_false, haa]
    exact authReadable_of_eligible hfirst he
  have hclaims : (u.withClaim cfg (aa.inferSpender c)).claims =
      (s.withClaim cfg (aa.inferSpender c)).claims := by
    simp only [State.withClaim, claimStoreSet, hu]
  rw [hauth]
  unfold authPaid
  rw [if_pos he.matching]
  by_cases hl : c.Loggable
  · rw [paidTier_serves cfg hget ha hclosed hsig hfresh hl]
    exact ⟨hclaims, fun _ => rfl, fun hn => absurd hl hn⟩
  · rw [paidTier_aborts cfg hget ha hclosed hsig hfresh hl]
    exact ⟨hclaims, fun h => absurd h hl, fun _ => rfl⟩

/-! ## One step -/

/-- A claim that was there before is accounted for after the step. -/
theorem ComesFrom.inherit {v : World} {later : List Action} {a : Action}
    (h : ComesFrom cr cfg hub claim v r later)
    (hrun : Runs.run (step cr cfg hub) v (.request r :: later) = some w)
    (hs : step cr cfg hub w a = some w')
    (hl : w'.state.claims.lookup claim.contractId = some claim')
    (hc : claim' = claim ∨
      claim' = { claim with claimed := true } ∧ a.Pays cfg claim.contractId claim.nonce) :
    ComesFrom cr cfg hub claim' v r (later ++ [a]) := by
  have hsame : { claim with claimed := claim'.claimed } = claim' := by
    rcases hc with rfl | ⟨rfl, -⟩ <;> rfl
  rw [← hsame]
  refine ⟨h.credentials, h.served, ?_, ?_⟩
  · intro l l' u heq hu
    rcases List.eq_nil_or_concat l' with rfl | ⟨l'', b, rfl⟩
    · -- after the step it is the claim itself
      rw [List.append_nil] at heq
      have hrun' : Runs.run (step cr cfg hub) v (.request r :: later ++ [a]) = some w' :=
        Runs.run_append.mpr ⟨w, hrun, Runs.run_cons.mpr ⟨w', hs, rfl⟩⟩
      rw [List.cons_append, heq, hu] at hrun'
      cases hrun'
      exact ⟨claim', hl, by rw [hsame]⟩
    · rw [List.concat_eq_append, ← List.append_assoc] at heq
      obtain ⟨hlater, -⟩ := List.append_inj' heq rfl
      obtain ⟨c, hlookup, hcl⟩ := h.stays l l'' u hlater hu
      exact ⟨c, hlookup, by rw [← hcl]⟩
  · intro hclaimed
    rcases hc with rfl | ⟨-, hpay⟩
    · obtain ⟨b, hb, hpay⟩ := h.paid hclaimed
      exact ⟨b, List.mem_append_left _ hb, hpay⟩
    · exact ⟨a, List.mem_append_right _ (List.mem_singleton_self a), hpay⟩

theorem Integral.inherit {a : Action} (h : Integral cr cfg hub actions w)
    (hrun : Runs.run (step cr cfg hub) {} actions = some w)
    (hs : step cr cfg hub w a = some w')
    (hkept : Inherits (fun j n => a.Pays cfg j n) k w.state w'.state)
    (hl : w'.state.claims.lookup k = some claim') :
    Accounted cr cfg hub (actions ++ [a]) k claim' := by
  obtain ⟨claim, hlookup, hc⟩ := hkept claim' hl
  obtain ⟨hkey, hpos, before, r, later, v, rfl, hv, hfrom⟩ := h k claim hlookup
  have hid : claim.contractId = k := reachable_keyed hrun k claim hlookup
  have hid' : claim'.contractId = claim.contractId := by
    rcases hc with rfl | ⟨rfl, -⟩ <;> rfl
  obtain ⟨u, hu, hrest⟩ := Runs.run_append.mp hrun
  cases hv.symm.trans hu
  refine ⟨?_, by rw [hid']; exact hpos, before, r, later ++ [a], v, ?_, hv, ?_⟩
  · rw [hkey, Claim.key, Claim.key, hid']
  · rw [List.append_assoc, List.cons_append]
  · exact hfrom.inherit hrest hs (by rw [hid]; exact hl) hc

/-- The claim of a request that is served is accounted for. -/
theorem Stores.accounted (h : Stores cr cfg hub r w.state aa c)
    (hrun : Runs.run (step cr cfg hub) {} actions = some w)
    (hs : step cr cfg hub w (.request r) = some w')
    (hg : aa.contractId ≠ 0 ∧ c.Loggable)
    (hl : w'.state.claims.lookup aa.contractId = some claim) :
    Accounted cr cfg hub (actions ++ [.request r]) aa.contractId claim := by
  have hkeyed := reachable_keyed hrun
  obtain ⟨hclaims, hserved, -⟩ := h.effect
  have hclaim : claim = claimFor cfg (aa.inferSpender c)
      (w.state.claims.lookup (aa.inferSpender c).contractId) := by
    have hlook := hkeyed.withClaim_lookup cfg (aa.inferSpender c) aa.contractId
    rw [if_pos (ArkAuth.inferSpender_contractId c).symm, ← hclaims] at hlook
    cases hs
    exact Option.some.inj (hl.symm.trans hlook)
  have hid : claim.contractId = aa.contractId := by
    rw [hclaim, hkeyed.claimFor_contractId, ArkAuth.inferSpender_contractId]
  have hnonce : claim.nonce = aa.nonce := by
    rw [hclaim]
    exact ArkAuth.inferSpender_nonce c
  refine ⟨by rw [Claim.key, hid], by rw [hid]; exact Nat.one_le_iff_ne_zero.mpr hg.1, actions, r,
    [], w, rfl, hrun, ⟨aa, h.readable, hid.symm, hnonce.symm, ?_⟩, ?_, ?_, ?_⟩
  · rw [hclaim]
    exact congrArg hexEncode (ArkAuth.inferSpender_signature c).symm
  · rw [hid, hnonce]
    exact hserved hg.2
  · intro l l' u heq hu
    obtain ⟨rfl, -⟩ := List.append_eq_nil_iff.mp heq.symm
    obtain ⟨t, ht, hu⟩ := Runs.run_cons.mp hu
    cases hs.symm.trans ht
    cases hu
    exact ⟨claim, by rw [hid]; exact hl, rfl⟩
  · intro hclaimed
    rw [hclaim] at hclaimed
    cases hclaimed

/-! ## Blank claims -/

theorem handleSettlement_blank {e : Settlement} (h : writesBlank cfg s e = true) :
    ((handleSettlement cfg e s).claims.lookup 0).isNone = false := by
  simp only [writesBlank, Bool.and_eq_true, decide_eq_true_eq, Option.isNone_iff_eq_none] at h
  obtain ⟨⟨hp, hn⟩, hl⟩ := h
  unfold handleSettlement claimStoreGet
  rw [if_pos hp]
  simp only [hl, Option.getD_none, hn, if_true]
  rw [claimStoreSet_lookup, if_pos rfl]
  rfl

/-- An event that writes no blank claim leaves the others as they would be. -/
theorem writesBlank_handleSettlement {e e' : Settlement} (hk : s.Keyed)
    (he : writesBlank cfg s e = false) (he' : writesBlank cfg s e' = true) :
    writesBlank cfg (handleSettlement cfg e s) e' = true := by
  have hkept : Inherits (fun j n => e.Pays cfg j n) e'.contractId s (handleSettlement cfg e s) :=
    inherits_handleSettlement hk (.inr he)
  simp only [writesBlank, Bool.and_eq_true, decide_eq_true_eq,
    Option.isNone_iff_eq_none] at he' ⊢
  refine ⟨he'.1, Option.eq_none_iff_forall_ne_some.mpr fun c hl => ?_⟩
  obtain ⟨c', hl', -⟩ := hkept c hl
  rw [he'.2] at hl'
  cases hl'

/-- The blank claim of one event is not removed by the others. -/
theorem settlements_blank {es : List Settlement} (hk : s.Keyed)
    (h : ∃ e ∈ es, writesBlank cfg s e = true) :
    ((es.foldl (fun s e => handleSettlement cfg e s) s).claims.lookup 0).isNone = false := by
  have hstay : ∀ (es : List Settlement) (t : State), (t.claims.lookup 0).isNone = false →
      ((es.foldl (fun s e => handleSettlement cfg e s) t).claims.lookup 0).isNone = false := by
    intro es
    induction es with
    | nil => exact fun _ h => h
    | cons e es ih => exact fun t h => ih _ (handleSettlement_isNone e 0 h)
  induction es generalizing s with
  | nil =>
    obtain ⟨e, he, -⟩ := h
    exact absurd he List.not_mem_nil
  | cons e es ih =>
    cases he : writesBlank cfg s e with
    | true => exact hstay es _ (handleSettlement_blank he)
    | false =>
      obtain ⟨e', hmem, he'⟩ := h
      rcases List.mem_cons.mp hmem with rfl | hmem
      · rw [he] at he'
        cases he'
      · exact ih (hk.handleSettlement cfg e) ⟨e', hmem, writesBlank_handleSettlement hk he he'⟩

theorem step_blank {a : Action} (hk : w.state.Keyed) (ha : a.writesBlank cfg w.state = true)
    (hs : step cr cfg hub w a = some w') : (w'.state.claims.lookup 0).isNone = false := by
  cases a with
  | settled e =>
    cases hs
    exact handleSettlement_blank ha
  | newBlock height es =>
    cases hs
    have hk' : State.Keyed { w.state with blockHeight := height } := hk
    exact settlements_blank hk' (List.any_eq_true.mp ha)
  | _ => cases ha

/-! ## Runs -/

/-- A step that meets the guard keeps the store sound. -/
theorem Integral.step {a : Action} (h : Integral cr cfg hub actions w)
    (hrun : Runs.run (step cr cfg hub) {} actions = some w)
    (hg : Accounts cr cfg hub w a) (hs : step cr cfg hub w a = some w') :
    Integral cr cfg hub (actions ++ [a]) w' := by
  have hkeyed := reachable_keyed hrun
  intro k claim hl
  by_cases ha : ∃ r, a = .request r
  · obtain ⟨r, rfl⟩ := ha
    have hstate : w'.state = (auth cr cfg hub r w.state).2 := by
      cases hs
      rfl
    rcases auth_stores cr cfg hub r w.state with hc | ⟨aa, c, hst⟩
    · exact h.inherit hrun hs (.of_lookup (by rw [hstate, hc])) hl
    · by_cases hk : k = aa.contractId
      · subst hk
        exact hst.accounted hrun hs (hg aa c hst) hl
      · refine h.inherit hrun hs (.of_lookup ?_) hl
        rw [hstate, hst.effect.1, hkeyed.withClaim_lookup,
          if_neg (by rw [ArkAuth.inferSpender_contractId]; exact hk)]
  · push Not at ha
    have hblank : a.writesBlank cfg w.state = false := by
      cases a with
      | request r => exact absurd rfl (ha r)
      | _ => exact hg
    exact h.inherit hrun hs (step_inherits hkeyed ha (.inr hblank) hs).1 hl

/-- A request that becomes a claim without being served leaves the store unsound. -/
theorem Stores.served (h : Stores cr cfg hub r w.state aa c)
    (hrun : Runs.run (step cr cfg hub) {} actions = some w)
    (hs : step cr cfg hub w (.request r) = some w')
    (hi : Integral cr cfg hub (actions ++ [.request r]) w') :
    aa.contractId ≠ 0 ∧ c.Loggable := by
  have hkeyed := reachable_keyed hrun
  obtain ⟨hclaims, -, haborted⟩ := h.effect
  have hlook := hkeyed.withClaim_lookup cfg (aa.inferSpender c) aa.contractId
  rw [if_pos (ArkAuth.inferSpender_contractId c).symm, ← hclaims] at hlook
  have hl : w'.state.claims.lookup aa.contractId = some (claimFor cfg (aa.inferSpender c)
      (w.state.claims.lookup (aa.inferSpender c).contractId)) := by
    cases hs
    exact hlook
  generalize hclaim : claimFor cfg (aa.inferSpender c) _ = claim at hl
  have hid : claim.contractId = aa.contractId := by
    rw [← hclaim, hkeyed.claimFor_contractId, ArkAuth.inferSpender_contractId]
  have hnonce : claim.nonce = aa.nonce := by
    rw [← hclaim]
    exact ArkAuth.inferSpender_nonce c
  obtain ⟨-, hpos, before, r', later, v, heq, hv, hfrom⟩ := hi _ claim hl
  refine ⟨by omega, by_contra fun hlog => ?_⟩
  rcases List.eq_nil_or_concat later with rfl | ⟨later, b, rfl⟩
  · -- the request itself was not served
    obtain ⟨rfl, hr⟩ := List.append_inj' heq rfl
    cases hr
    cases hv.symm.trans hrun
    have hserved := hfrom.served
    rw [haborted hlog] at hserved
    cases hserved
  · -- an earlier one would have left a nonce that is not less
    rw [List.concat_eq_append, ← List.cons_append, ← List.append_assoc] at heq
    obtain ⟨rfl, -⟩ := List.append_inj' heq rfl
    obtain ⟨u, hu, hrest⟩ := Runs.run_append.mp hrun
    cases hv.symm.trans hu
    obtain ⟨c', hlookup, hc'⟩ := hfrom.stays later [b] w List.concat_eq_append hrest
    rw [hid, ← ArkAuth.inferSpender_contractId c] at hlookup
    have hless := h.fresh c' hlookup
    have hsame : c'.nonce = claim.nonce := by rw [← hc']
    rw [hsame, hnonce, ArkAuth.inferSpender_nonce] at hless
    exact Int64.lt_irrefl hless

/-- **One step** keeps the store sound if and only if it meets the guard. -/
theorem step_integral_iff {a : Action} (h : Integral cr cfg hub actions w)
    (hrun : Runs.run (step cr cfg hub) {} actions = some w)
    (hs : step cr cfg hub w a = some w') :
    Accounts cr cfg hub w a ↔ Integral cr cfg hub (actions ++ [a]) w' := by
  refine ⟨fun hg => h.step hrun hg hs, fun hi => ?_⟩
  have hquiet : a.writesBlank cfg w.state = false := by
    by_contra hne
    have hkeyed := reachable_keyed hrun
    have hblank := step_blank hkeyed (by simpa using hne) hs
    obtain ⟨claim, hl⟩ := Option.isSome_iff_exists.mp (by simpa using hblank)
    have hpos := (hi 0 claim hl).positive
    rw [step_keyed hkeyed hs 0 claim hl] at hpos
    exact Nat.not_succ_le_zero 0 hpos
  cases a with
  | request r => exact fun aa c hst => hst.served hrun hs hi
  | _ => exact hquiet

/-- **Where the stored claims come from.**  A run meets the guard throughout if and only if,
in every state that it passes, every claim is stored under the id of its own contract,
which is at least 1, comes from a request that was served, and is marked only if it was
paid since. -/
theorem claims_integral_iff (cr : Crypto) (cfg : Config) (hub : Hub) (actions : List Action) :
    Runs.Guarded (step cr cfg hub) (Accounts cr cfg hub) {} actions ↔
      ∀ before after w, actions = before ++ after →
        Runs.run (step cr cfg hub) {} before = some w → Integral cr cfg hub before w := by
  refine Runs.guarded_iff_forall_history ?_ ?_ ?_
  · intro k claim hl
    cases hl
  · intro w a hn
    cases a <;> cases hn
  · intro actions w a w' hrun hi hs
    exact step_integral_iff hi hrun hs

namespace Sample
open Arkeo.Sample

/-- The client's query is served, and the chain settles it. -/
def settledQuery : List Action :=
  [.newBlock 1 [], .opened opening, .request query, .newBlock 2 [⟨provider.pubKey, 2, 5⟩]]

/-- A contract of the provider expires unused. -/
def settledUnused : List Action := [.newBlock 2 [⟨provider.pubKey, 7, 0⟩]]

/-- What the query becomes a claim on can be logged. -/
theorem query_accounts : Accounts crypto config silent watching (.request query) := by
  intro aa c h
  obtain rfl := Option.some.inj (query_fetched.symm.trans h.readable)
  have hlog : (memStoreGet silent 2 (contractOf silent clientAuth watching.state).2).1.map
      (fun c => (int64? c.rate.2).isSome && (int64? c.deposit).isSome) = some true := by
    decide +kernel
  obtain ⟨c', t, hfirst, -, u, hget, -⟩ := h.eligible
  rw [hfirst] at hlog
  replace hget : memStoreGet silent 2 t = (some c, u) := hget
  rw [hget] at hlog
  simp only [Option.map_some, Option.some.injEq, Bool.and_eq_true] at hlog
  exact ⟨by decide, Option.isSome_iff_exists.mp hlog.1, Option.isSome_iff_exists.mp hlog.2⟩

end Sample

/-- The claim of the client's query is accounted for, and marked. -/
theorem settled_query_integral : ∃ w,
    Runs.run (step Sample.crypto Sample.config Sample.silent) {} Sample.settledQuery = some w ∧
    (w.state.claims.lookup 2).map (fun c => (c.nonce, c.claimed)) = some (5, true) ∧
    Integral Sample.crypto Sample.config Sample.silent Sample.settledQuery w := by
  have hmarked : (Runs.run (step Sample.crypto Sample.config Sample.silent) {}
      Sample.settledQuery).map (fun w => (w.state.claims.lookup 2).map
        fun c => (c.nonce, c.claimed)) = some (some (5, true)) := by
    simp only [Sample.settledQuery, Runs.run, step, auth, Sample.query_fetched]
    decide +kernel
  obtain ⟨w, hw, hm⟩ := Option.map_eq_some_iff.mp hmarked
  refine ⟨w, hw, hm, (claims_integral_iff _ _ _ Sample.settledQuery).mp ?_ Sample.settledQuery []
    w (List.append_nil _).symm hw⟩
  refine (Runs.guarded_append (l := [Action.newBlock 1 [], Action.opened Sample.opening])).mpr
    ⟨⟨rfl, fun _ _ => ⟨rfl, fun _ _ => trivial⟩⟩, fun t ht => ?_⟩
  obtain rfl := Option.some.inj (Sample.watching_run.symm.trans ht)
  exact ⟨Sample.query_accounts, fun _ _ => ⟨rfl, fun _ _ => trivial⟩⟩

/-- **A blank claim.**  The settlement of a contract that was never used leaves a claim on
contract `0`, marked, that no request stands for. -/
theorem unused_contract_leaves_claim : ∃ w,
    Runs.run (step Sample.crypto Sample.config Sample.silent) {} Sample.settledUnused = some w ∧
    w.state.claims.lookup 0 = some { claimed := true } ∧
    ¬Integral Sample.crypto Sample.config Sample.silent Sample.settledUnused w := by
  have hblank : (Runs.run (step Sample.crypto Sample.config Sample.silent) {}
      Sample.settledUnused).map (fun w => w.state.claims.lookup 0) =
        some (some { claimed := true }) := by decide +kernel
  obtain ⟨w, hw, hl⟩ := Option.map_eq_some_iff.mp hblank
  refine ⟨w, hw, hl, fun h => ?_⟩
  exact absurd (h 0 _ hl).positive (by decide)

end Arkeo.Sentinel
