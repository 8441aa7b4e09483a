import Arkeo.Sentinel.Deployment
import Arkeo.Sentinel.Replay

/-! # Which claims the provider gets to see

The provider asks the sentinel for the open claims and presents them to the chain.  The
chain takes a claim until the settlement period of its contract is over.  The sentinel
goes by the end of the paid period: a claim whose contract has expired is taken off the
list and deleted, in the very period that is there for it.  `claims_kept_iff` says that
this is all that can go wrong; `claim_dropped` is a claim that is deleted while the chain
would have paid it.
-/
namespace Arkeo.Sentinel
open Exec Text

variable {cr : Crypto} {cfg : Config} {hub : Hub} {s s' : State} {k : ℕ}

/-! ## One look at the open claims -/

/-- A look-up finds a contract alive in memory, or asks for one. -/
theorem findsAlive_eq (hub : Hub) (k : ℕ) (s : State) : findsAlive hub k s =
    (s.cached k || (hub s.fetches k).any fun r => !r.contract.isExpired s.blockHeight) := by
  unfold findsAlive
  cases hc : s.cached k with
  | true =>
    obtain ⟨c, hl, hg⟩ := memStoreGet_of_cached hub hc
    rw [State.cached, hl] at hc
    simp [hg, hc]
  | false =>
    rw [memStoreGet_of_not_cached hub hc, fetchAndCache, fetchContract]
    cases hub s.fetches k with
    | none => rfl
    | some r =>
      simp only [Option.map_some, Option.any_some, Bool.false_or]
      split <;> rfl

/-- What is done for another contract: everything about this one is as it was. -/
structure Untouched (k : ℕ) (acc acc' : List Claim × State) : Prop where
  db : acc'.2.db.lookup k = acc.2.db.lookup k
  blockHeight : acc'.2.blockHeight = acc.2.blockHeight
  claims : acc'.2.claims.lookup k = acc.2.claims.lookup k
  listed : ∀ claim, claim.contractId = k → (claim ∈ acc'.1 ↔ claim ∈ acc.1)

theorem Untouched.refl (k : ℕ) (acc : List Claim × State) : Untouched k acc acc :=
  ⟨rfl, rfl, rfl, fun _ _ => Iff.rfl⟩

theorem Untouched.trans {acc acc' acc'' : List Claim × State} (h : Untouched k acc acc')
    (h' : Untouched k acc' acc'') : Untouched k acc acc'' where
  db := h'.db.trans h.db
  blockHeight := h'.blockHeight.trans h.blockHeight
  claims := h'.claims.trans h.claims
  listed claim hid := (h'.listed claim hid).trans (h.listed claim hid)

theorem visitClaim_untouched (hub : Hub) (acc : List Claim × State) {claim : Claim}
    (hk : claim.contractId ≠ k) : Untouched k acc (visitClaim hub acc claim) := by
  have hdb : (memStoreGet hub claim.contractId acc.2).2.db.lookup k = acc.2.db.lookup k := by
    cases hc : acc.2.cached claim.contractId with
    | true =>
      obtain ⟨c, -, hg⟩ := memStoreGet_of_cached hub hc
      rw [hg]
    | false =>
      rw [memStoreGet_of_not_cached hub hc, fetchAndCache_lookup hub (Ne.symm hk)]
  have hheight := memStoreGet_blockHeight hub claim.contractId acc.2
  have hclaims := memStoreGet_claims hub claim.contractId acc.2
  unfold visitClaim
  split
  · exact .refl k acc
  split
  · rename_i t hg
    rw [hg] at hdb hheight hclaims
    exact ⟨hdb, hheight, congrArg _ hclaims, fun _ _ => Iff.rfl⟩
  · rename_i c t hg
    rw [hg] at hdb hheight hclaims
    split
    · refine ⟨hdb, hheight, ?_, fun _ _ => Iff.rfl⟩
      rw [claimStoreRemove_lookup, if_neg (Ne.symm hk)]
      exact congrArg _ hclaims
    · refine ⟨hdb, hheight, congrArg _ hclaims, ?_⟩
      rintro other rfl
      simp only [List.mem_append, List.mem_singleton, or_iff_left_iff_imp]
      rintro rfl
      exact absurd rfl hk

theorem foldl_untouched (hub : Hub) {claims : List Claim} (h : ∀ c ∈ claims, c.contractId ≠ k)
    (acc : List Claim × State) : Untouched k acc (claims.foldl (visitClaim hub) acc) := by
  induction claims generalizing acc with
  | nil => exact .refl k acc
  | cons claim claims ih =>
    obtain ⟨hhead, htail⟩ := List.forall_mem_cons.mp h
    exact (visitClaim_untouched hub acc hhead).trans (ih htail _)

/-- The visit of a claim that has not been paid: it is listed if its contract is found
alive, and kept then. -/
theorem visitClaim_unclaimed (hub : Hub) (acc : List Claim × State) {claim : Claim}
    (hcl : claim.claimed = false) : (visitClaim hub acc claim).1 =
        (if findsAlive hub claim.contractId acc.2 then acc.1 ++ [claim] else acc.1) ∧
      (findsAlive hub claim.contractId acc.2 = true →
        (visitClaim hub acc claim).2.claims = acc.2.claims) := by
  have hclaims := memStoreGet_claims hub claim.contractId acc.2
  unfold visitClaim findsAlive
  rw [hcl, if_neg Bool.false_ne_true]
  rcases hg : memStoreGet hub claim.contractId acc.2 with ⟨found, t⟩
  rw [hg] at hclaims
  cases found with
  | none => exact ⟨rfl, nofun⟩
  | some c =>
    simp only [Bool.not_eq_true']
    cases c.isExpired t.blockHeight with
    | true => exact ⟨rfl, nofun⟩
    | false => exact ⟨rfl, fun _ => hclaims⟩

/-- Every claim is visited once. -/
theorem claimStoreList_nodup (hk : s.Keyed) : ((claimStoreList s).map Claim.contractId).Nodup := by
  have hperm := List.perm_insertionSort
    (fun a b : Sigma fun _ : ℕ => Claim => toString a.1 ≤ toString b.1) s.claims.entries
  have hkeys : ((claimStoreList s).map Claim.contractId) =
      (s.claims.entries.insertionSort fun a b => toString a.1 ≤ toString b.1).map Sigma.fst := by
    rw [claimStoreList, List.map_map]
    refine List.map_congr_left ?_
    rintro ⟨key, claim⟩ hmem
    exact hk key claim (AList.mem_lookup_iff.mpr (hperm.mem_iff.mp hmem))
  rw [hkeys]
  exact (hperm.map Sigma.fst).nodup_iff.mpr s.claims.nodupKeys

theorem claimStoreList_split (hk : s.Keyed) {claim : Claim}
    (hl : s.claims.lookup k = some claim) : ∃ before after,
      claimStoreList s = before ++ claim :: after ∧ (∀ c ∈ before, c.contractId ≠ k) ∧
      ∀ c ∈ after, c.contractId ≠ k := by
  obtain ⟨before, after, hlist⟩ := List.append_of_mem (mem_claimStoreList.mpr ⟨k, hl⟩)
  have hnodup := claimStoreList_nodup hk
  rw [hlist, List.map_append, List.map_cons, hk k claim hl, List.nodup_middle] at hnodup
  have hnot := (List.nodup_cons.mp hnodup).1
  refine ⟨before, after, hlist, ?_, ?_⟩
  · rintro c hc rfl
    exact hnot (List.mem_append_left _ (List.mem_map_of_mem hc))
  · rintro c hc rfl
    exact hnot (List.mem_append_right _ (List.mem_map_of_mem hc))

/-- **The list of open claims.**  A claim that has not been paid is on it if its contract
is found alive, and is kept then. -/
theorem mem_handleOpenClaims_iff (hk : s.Keyed) (hsteady : ∀ n n', hub n k = hub n' k)
    {claim : Claim} (hl : s.claims.lookup k = some claim) (hcl : claim.claimed = false) :
    (claim ∈ (handleOpenClaims hub s).1 ↔ findsAlive hub k s = true) ∧
      (findsAlive hub k s = true → (handleOpenClaims hub s).2.claims.lookup k = some claim) := by
  obtain ⟨before, after, hlist, hbefore, hafter⟩ := claimStoreList_split hk hl
  have hid := hk k claim hl
  unfold handleOpenClaims
  rw [hlist, List.foldl_append, List.foldl_cons]
  have hfirst := foldl_untouched hub hbefore ([], s)
  set acc := before.foldl (visitClaim hub) ([], s)
  have hlast := foldl_untouched hub hafter (visitClaim hub acc claim)
  obtain ⟨hlisted, hkept⟩ := visitClaim_unclaimed hub acc hcl
  have halive : findsAlive hub claim.contractId acc.2 = findsAlive hub k s := by
    rw [hid, findsAlive_eq, findsAlive_eq, State.cached, State.cached, hfirst.db,
      hfirst.blockHeight, hsteady acc.2.fetches s.fetches]
  have hnot : claim ∉ acc.1 := fun h => absurd ((hfirst.listed claim hid).mp h) (by simp)
  rw [halive] at hlisted hkept
  constructor
  · rw [hlast.listed claim hid, hlisted]
    split
    · rename_i h
      simp [h]
    · rename_i h
      simp [h, hnot]
  · intro h
    rw [hlast.claims, hkept h, hfirst.claims]
    exact hl

/-! ## The other steps -/

variable {w w' : World}

/-- The claim of contract `k` is still there, or one with a greater nonce. -/
def ClaimKept (k : ℕ) (s s' : State) : Prop :=
  ∀ claim, s.claims.lookup k = some claim →
    ∃ claim', s'.claims.lookup k = some claim' ∧ claim.nonce ≤ claim'.nonce

theorem ClaimKept.of_lookup (h : s'.claims.lookup k = s.claims.lookup k) : ClaimKept k s s' :=
  fun claim hl => ⟨claim, h.trans hl, Int64.le_refl _⟩

theorem ClaimKept.trans {t : State} (h : ClaimKept k s t) (h' : ClaimKept k t s') :
    ClaimKept k s s' := by
  intro claim hl
  obtain ⟨c, hc, hle⟩ := h claim hl
  obtain ⟨c', hc', hle'⟩ := h' c hc
  exact ⟨c', hc', Int64.le_trans hle hle'⟩

/-- Writing a claim of another contract, or one with no smaller nonce. -/
theorem ClaimKept.set {claim : Claim} (h : claim.contractId = k → ∀ cur,
    s.claims.lookup k = some cur → cur.nonce ≤ claim.nonce) :
    ClaimKept k s (claimStoreSet claim s) := by
  intro cur hl
  rw [claimStoreSet_lookup]
  split
  · rename_i hk
    exact ⟨claim, rfl, h hk.symm cur hl⟩
  · exact ⟨cur, hl, Int64.le_refl _⟩

/-- Marking a stored claim. -/
theorem ClaimKept.mark {c : Claim} (hc : s.claims.lookup c.contractId = some c) :
    ClaimKept k s (claimStoreSet { c with claimed := true } s) := by
  refine .set ?_
  rintro rfl cur hl
  obtain rfl := Option.some.inj (hc.symm.trans hl)
  exact Int64.le_refl _

theorem claimKept_auth (hk : s.Keyed) (cr : Crypto) (cfg : Config) (hub : Hub) (r : Request) :
    ClaimKept k s (auth cr cfg hub r s).2 := by
  rcases auth_claims cr cfg hub r s with ⟨hc, -⟩ | ⟨aa, -, hfresh, -, hc, -⟩
  · exact .of_lookup (by rw [hc])
  · intro claim hl
    rw [hc, hk.withClaim_lookup]
    split
    · rename_i heq
      subst heq
      exact ⟨_, rfl, Int64.le_of_lt (hfresh claim hl)⟩
    · exact ⟨claim, hl, Int64.le_refl _⟩

theorem claimKept_handleMarkClaimed (hk : s.Keyed) (id nonce : ℕ) :
    ClaimKept k s (handleMarkClaimed id nonce s) := by
  unfold handleMarkClaimed
  split
  · rename_i c hf
    obtain ⟨key, hl⟩ := mem_claimStoreList.mp (List.mem_of_find?_eq_some hf)
    split
    · exact .of_lookup rfl
    · exact .mark (by rw [hk key c hl]; exact hl)
  · exact .of_lookup rfl

/-- A settlement without a claim writes a blank one under contract `0`, which is none. -/
theorem claimKept_handleSettlement (hk : s.Keyed) (hzero : k ≠ 0) (e : Settlement) :
    ClaimKept k s (handleSettlement cfg e s) := by
  unfold handleSettlement claimStoreGet
  split
  · cases hl : s.claims.lookup e.contractId with
    | some c =>
      simp only [Option.getD_some]
      split
      · exact .mark (by rw [hk _ c hl]; exact hl)
      · exact .of_lookup rfl
    | none =>
      simp only [Option.getD_none]
      split
      · exact .set fun h => absurd h.symm hzero
      · exact .of_lookup rfl
  · exact .of_lookup rfl

theorem claimKept_handleNewBlock (hk : s.Keyed) (hzero : k ≠ 0) (height : Int64)
    (es : List Settlement) : ClaimKept k s (handleNewBlock cfg height es s) := by
  have hfold : ∀ (es : List Settlement) (t : State), t.Keyed →
      ClaimKept k t (es.foldl (fun s e => handleSettlement cfg e s) t) := by
    intro es
    induction es with
    | nil => exact fun _ _ => .of_lookup rfl
    | cons e es ih =>
      intro t ht
      exact (claimKept_handleSettlement ht hzero e).trans (ih _ (ht.handleSettlement cfg e))
  exact hfold es { s with blockHeight := height } hk

/-- Only the list of open claims loses any. -/
theorem step_claimKept {a : Action} (hk : w.state.Keyed) (hzero : k ≠ 0) (ha : a ≠ .openClaims)
    (hs : step cr cfg hub w a = some w') : ClaimKept k w.state w'.state := by
  cases a with
  | request r =>
    cases hs
    exact claimKept_auth hk cr cfg hub r
  | openClaims => exact absurd rfl ha
  | markClaimed id nonce =>
    cases hs
    exact claimKept_handleMarkClaimed hk id nonce
  | manage id raw m =>
    cases hs
    exact .of_lookup (congrArg _ (handleContract_claims cr hub id raw m w.state))
  | opened e =>
    cases hs
    exact .of_lookup (congrArg _ (handleOpenContract_claims cfg e w.state))
  | closed id provider service client delegate =>
    cases hs
    exact .of_lookup (congrArg _
      (handleCloseContract_claims cfg id provider service client delegate w.state))
  | settled e =>
    cases hs
    exact claimKept_handleSettlement hk hzero e
  | newBlock height es =>
    cases hs
    exact claimKept_handleNewBlock hk hzero height es
  | restart =>
    cases hs
    exact .of_lookup rfl

/-! ## Runs of the deployment -/

variable {chain : Arkeo.World} {d d' : Deployment} {moves : List Move}

/-- What every run keeps, on any condition. -/
structure Orderly (cr : Crypto) (d : Deployment) : Prop where
  inv : Inv cr d.chain.ctx d.chain.chain
  positive : ∀ c, d.contracts.lookup 0 ≠ some c
  keyed : d.sentinel.state.Keyed
  queue : ∀ a ∈ d.queue, a.isCall = false

theorem lookup_zero {v v' : Arkeo.World} {txs : List Arkeo.Action}
    (hi : Inv cr v.ctx v.chain) (h : ∀ c, v.chain.contracts.lookup 0 ≠ some c)
    (hrun : Runs.run (Arkeo.step cr) v txs = some v') :
    Inv cr v'.ctx v'.chain ∧ ∀ c, v'.chain.contracts.lookup 0 ≠ some c := by
  refine Runs.run_induct (P := fun v => Inv cr v.ctx v.chain ∧
    ∀ c, v.chain.contracts.lookup 0 ≠ some c) ?_ ⟨hi, h⟩ hrun
  rintro v a v' ⟨hi, h⟩ hstep
  have ho := Arkeo.step_outcome hi hstep
  refine ⟨ho.inv hi, ?_⟩
  intro c hc
  rcases (ho.later hi).origin 0 c hc with ⟨c', hc', -⟩ | ⟨-, hnew⟩
  · exact h c' hc'
  · obtain ⟨msg, service, signer, -, hid, -⟩ := hnew
    unfold ChainState.getNextContractId at hid
    split at hid
    · cases hid
    · rename_i hnext
      exact hnext hid.symm

theorem notices_not_call (tx : List Arkeo.Action) (es : List Event) :
    ∀ b ∈ notices tx es, b.isCall = false := by
  intro b hb
  obtain ⟨sub, hsub, hnotice⟩ := List.mem_filterMap.mp hb
  unfold Subscription.notice at hnotice
  split at hnotice
  swap
  · cases hnotice
  obtain ⟨ev, -, hparse⟩ := List.exists_of_findSome?_eq_some hnotice
  simp only [List.mem_cons, List.not_mem_nil, or_false] at hsub
  rcases hsub with rfl | rfl | rfl
  all_goals
    cases ev <;> cases hparse
    rfl

theorem transactions_not_call (v : Arkeo.World) (txs : List (List Arkeo.Action)) :
    ∀ b ∈ (transactions cr v txs).2, b.isCall = false := by
  induction txs generalizing v with
  | nil =>
    intro b hb
    cases hb
  | cons tx txs ih =>
    rw [transactions]
    cases transaction cr v tx with
    | none => exact ih v
    | some v' =>
      intro b hb
      rcases List.mem_append.mp hb with hb | hb
      · exact notices_not_call tx _ b hb
      · exact ih v' b hb

theorem step_orderly {m : Move} (h : Orderly cr d) (hstep : d.step cr cfg m = some d') :
    Orderly cr d' := by
  cases m with
  | block txs =>
    obtain ⟨height, es, hend, hqueue, hsentinel⟩ := step_block hstep
    obtain ⟨actions, hrun⟩ := block_run hend
    obtain ⟨hinv, hpositive⟩ := lookup_zero h.inv h.positive hrun
    refine ⟨hinv, hpositive, by rw [hsentinel]; exact h.keyed, ?_⟩
    intro a ha
    rw [hqueue] at ha
    rcases List.mem_append.mp ha with hold | hnew
    · exact h.queue a hold
    · rcases List.mem_cons.mp hnew with rfl | hnew
      · rfl
      · exact transactions_not_call d.chain txs a hnew
  | handle n =>
    obtain ⟨a, -, hs, hchain, hqueue⟩ := step_handle hstep
    refine ⟨by rw [hchain]; exact h.inv, ?_, step_keyed h.keyed hs, ?_⟩
    · rw [Deployment.contracts, hchain]
      exact h.positive
    · intro b hb
      rw [hqueue] at hb
      exact h.queue b (List.mem_of_mem_eraseIdx hb)
  | call a =>
    simp only [Deployment.step] at hstep
    split at hstep
    · obtain ⟨sentinel, hs, rfl⟩ := Option.map_eq_some_iff.mp hstep
      exact ⟨h.inv, h.positive, step_keyed h.keyed hs, h.queue⟩
    · cases hstep
  | restart =>
    obtain rfl := Option.some.inj hstep
    refine ⟨h.inv, h.positive, h.keyed, ?_⟩
    intro a ha
    cases ha

theorem orderly_start (hg : Genesis chain) : Orderly cr { chain := chain } := by
  refine ⟨hg.inv, ?_, ?_, nofun⟩
  · intro c hc
    rw [Deployment.contracts, hg.contracts] at hc
    cases hc
  · intro key claim hl
    cases hl

/-- Every move but a look at the open claims keeps the claim of a contract. -/
theorem move_claimKept {m : Move} (h : Orderly cr d) (hzero : k ≠ 0) (hm : m ≠ .call .openClaims)
    (hstep : d.step cr cfg m = some d') : ClaimKept k d.sentinel.state d'.sentinel.state := by
  cases m with
  | block txs =>
    obtain ⟨-, -, -, -, hsentinel⟩ := step_block hstep
    exact .of_lookup (by rw [hsentinel])
  | handle n =>
    obtain ⟨a, ha, hs, -⟩ := step_handle hstep
    refine step_claimKept h.keyed hzero ?_ hs
    rintro rfl
    have hcall := h.queue .openClaims (List.mem_of_getElem? ha)
    cases hcall
  | call a =>
    simp only [Deployment.step] at hstep
    split at hstep
    · obtain ⟨sentinel, hs, rfl⟩ := Option.map_eq_some_iff.mp hstep
      exact step_claimKept h.keyed hzero (fun ha => hm (by rw [ha])) hs
    · cases hstep
  | restart =>
    obtain rfl := Option.some.inj hstep
    exact .of_lookup rfl

/-! ## Claims that the chain would take -/

/-- The claim is stored and has not been marked, and the chain would take it at the height:
its nonce is new, and the contract's settlement period is not over. -/
structure Collectable (d : Deployment) (height : Int64) (k : ℕ) (claim : Claim) (c : Contract) :
    Prop where
  stored : d.sentinel.state.claims.lookup k = some claim
  unclaimed : claim.claimed = false
  onChain : d.contracts.lookup k = some c
  newer : c.nonce < claim.nonce
  unsettled : c.isSettled height = false

/-- **The guarantee.**  A claim that the chain would take is listed, and no move loses it. -/
def Kept (cr : Crypto) (cfg : Config) (d : Deployment) (height : Int64) : Prop :=
  ∀ k claim c, Collectable d height k claim c →
    claim ∈ (handleOpenClaims (d.hub cr) d.sentinel.state).1 ∧
    ∀ m d', d.step cr cfg m = some d' → ClaimKept k d.sentinel.state d'.sentinel.state

/-- **The condition.**  A claim that the chain would take is on a contract that the
sentinel has in memory unexpired, or that the hub shows open at the sentinel's height. -/
def Timely (cr : Crypto) (d : Deployment) (height : Int64) : Prop :=
  ∀ k claim c, Collectable d height k claim c → d.sentinel.state.cached k = true ∨
    (d.hub cr 0 k).isSome = true ∧ c.isOpen d.sentinel.state.blockHeight = true

/-- The contract of a claim is found alive where it is open. -/
theorem Orderly.findsAlive_iff (h : Orderly cr d) {c : Contract}
    (hc : d.contracts.lookup k = some c) :
    findsAlive (d.hub cr) k d.sentinel.state = true ↔ d.sentinel.state.cached k = true ∨
      (d.hub cr 0 k).isSome = true ∧ c.isOpen d.sentinel.state.blockHeight = true := by
  have hsteady : d.hub cr d.sentinel.state.fetches k = d.hub cr 0 k := rfl
  rw [findsAlive_eq, hsteady, Bool.or_eq_true]
  refine or_congr_right ?_
  cases hr : d.hub cr 0 k with
  | none => simp
  | some r =>
    have hfetched : fetched cr c = some r.contract := by
      unfold Deployment.hub hubOf at hr
      rw [show d.chain.chain.contracts.lookup k = some c from hc] at hr
      simp only at hr
      split at hr
      · rw [fetched, hr]
        rfl
      · cases hr
    have hknown := fetched_some (h.inv.stored k c hc).wf hfetched
    have hexpired : ∀ t, r.contract.isExpired t = !c.isOpen t := by
      intro t
      rw [hknown]
      rfl
    simp [hexpired]

/-- **When the claims are kept.**  In every state that a sentinel beside a chain reaches,
the claims that the chain would take at a height are listed and not lost if and only if
their contracts are still open for the sentinel. -/
theorem claims_kept_iff (hg : Genesis chain)
    (hrun : Runs.run (Deployment.step cr cfg) { chain := chain } moves = some d)
    (height : Int64) : Kept cr cfg d height ↔ Timely cr d height := by
  have ho : Orderly cr d :=
    Runs.run_induct (fun _ _ _ h hstep => step_orderly h hstep) (orderly_start hg) hrun
  have hsteady : ∀ k n n', d.hub cr n k = d.hub cr n' k := fun _ _ _ => rfl
  have hlist := fun k claim c (h : Collectable d height k claim c) =>
    mem_handleOpenClaims_iff ho.keyed (hsteady k) h.stored h.unclaimed
  constructor
  · intro hkept k claim c hcoll
    rw [← ho.findsAlive_iff hcoll.onChain]
    exact (hlist k claim c hcoll).1.mp (hkept k claim c hcoll).1
  · intro htimely k claim c hcoll
    have halive := (ho.findsAlive_iff hcoll.onChain).mpr (htimely k claim c hcoll)
    refine ⟨(hlist k claim c hcoll).1.mpr halive, ?_⟩
    intro m d' hstep
    by_cases hm : m = .call .openClaims
    · subst hm
      obtain rfl := Option.some.inj hstep
      refine .of_lookup ?_
      exact ((hlist k claim c hcoll).2 halive).trans hcoll.stored.symm
    · refine move_claimKept ho ?_ hm hstep
      rintro rfl
      exact ho.positive c hcoll.onChain

namespace Sample
open Arkeo.Sample

/-- The client's query is served, and its claim is stored. -/
def claimed : List Move := attended ++ [.call (.request paidQuery)]

/-- The provider asks for a settlement period of three blocks, and a contract of one block
runs out: its settlement period has begun. -/
def expired : List Move :=
  [.block
    (each (setup ++
      [.msg (.modProvider
        { creator := provider.account, provider := provider.pubKey, service := service
          metadataUri := "", metadataNonce := 2, status := .online, minContractDuration := 1
          maxContractDuration := 100, subscriptionRate := [⟨denom, 10⟩]
          payAsYouGoRate := [⟨denom, 10⟩], settlementDuration := 3 }),
       .msg (.openContract { openMsg .subscription 10 with settlementDuration := 3 }),
       .msg (.openContract { openMsg .payAsYouGo 100 with settlementDuration := 3 })])),
   .handle 0, .handle 0, .handle 0, .call (.request paidQuery), .block [], .handle 0, .block [],
   .handle 0]

end Sample

/-- The claim of an open contract is kept. -/
theorem open_claim_kept : ∃ d claim c,
    Runs.run (Deployment.step Sample.crypto Sample.config) { chain := Arkeo.Sample.genesis }
      Sample.claimed = some d ∧ Collectable d 1 2 claim c ∧
    Kept Sample.crypto Sample.config d 1 := by
  have h : ((Runs.run (Deployment.step Sample.crypto Sample.config)
      { chain := Arkeo.Sample.genesis } Sample.claimed).bind fun d =>
      (d.sentinel.state.claims.lookup 2).bind fun claim => (d.contracts.lookup 2).map fun c =>
        (d.sentinel.state.claims.keys, d.sentinel.state.cached 2, claim.claimed,
          decide (c.nonce < claim.nonce), c.isSettled 1)) =
      some ([2], true, false, true, false) := by
    simp only [Sample.claimed, Runs.run_append_of Sample.attending_run, Runs.run, Deployment.step,
      Sentinel.step, auth, Sample.paidQuery_fetched]
    decide +kernel
  obtain ⟨d, hd, h⟩ := Option.bind_eq_some_iff.mp h
  obtain ⟨claim, hclaim, h⟩ := Option.bind_eq_some_iff.mp h
  obtain ⟨c, hc, h⟩ := Option.map_eq_some_iff.mp h
  simp only [Prod.mk.injEq, decide_eq_true_eq] at h
  obtain ⟨hkeys, hcached, hunclaimed, hnewer, hunsettled⟩ := h
  refine ⟨d, claim, c, hd, ⟨hclaim, hunclaimed, hc, hnewer, hunsettled⟩, ?_⟩
  refine (claims_kept_iff Arkeo.Sample.genesis_ok hd 1).mpr ?_
  intro k claim' c' hcoll
  have hk : k ∈ d.sentinel.state.claims.keys :=
    AList.mem_keys.mp (AList.lookup_isSome.mp (by rw [hcoll.stored]; rfl))
  rw [hkeys] at hk
  obtain rfl := List.mem_singleton.mp hk
  exact .inl hcached

/-- **A claim is deleted while the chain would pay it.**  At height 3 the contract has
expired, and its settlement period ends at height 5. -/
theorem claim_dropped : ∃ d d' claim c,
    Runs.run (Deployment.step Sample.crypto Sample.config) { chain := Arkeo.Sample.genesis }
      Sample.expired = some d ∧ d.CaughtUp ∧ d.sentinel.state.blockHeight = 3 ∧
    Collectable d 3 2 claim c ∧ c.isSettled 4 = false ∧
    (handleOpenClaims (d.hub Sample.crypto) d.sentinel.state).1 = [] ∧
    d.step Sample.crypto Sample.config (.call .openClaims) = some d' ∧
    d'.sentinel.state.claims.lookup 2 = none := by
  have h : ((Runs.run (Deployment.step Sample.crypto Sample.config)
      { chain := Arkeo.Sample.genesis } Sample.expired).bind fun d =>
      (d.sentinel.state.claims.lookup 2).bind fun claim => (d.contracts.lookup 2).bind fun c =>
      (d.step Sample.crypto Sample.config (.call .openClaims)).map fun d' =>
        ((decide d.CaughtUp, d.sentinel.state.blockHeight, claim.claimed,
          decide (c.nonce < claim.nonce)), (c.isSettled 3, c.isSettled 4),
          (handleOpenClaims (d.hub Sample.crypto) d.sentinel.state).1.isEmpty,
          (d'.sentinel.state.claims.lookup 2).isNone)) =
      some ((true, 3, false, true), (false, false), true, true) := by
    simp only [Sample.expired, Runs.run, Deployment.step, Sentinel.step, auth,
      Sample.paidQuery_fetched]
    decide +kernel
  obtain ⟨d, hd, h⟩ := Option.bind_eq_some_iff.mp h
  obtain ⟨claim, hclaim, h⟩ := Option.bind_eq_some_iff.mp h
  obtain ⟨c, hc, h⟩ := Option.bind_eq_some_iff.mp h
  obtain ⟨d', hd', h⟩ := Option.map_eq_some_iff.mp h
  simp only [Prod.mk.injEq, decide_eq_true_eq] at h
  obtain ⟨⟨hcaught, hheight, hunclaimed, hnewer⟩, ⟨hunsettled, hlater⟩, hlist, hgone⟩ := h
  exact ⟨d, d', claim, c, hd, hcaught, hheight, ⟨hclaim, hunclaimed, hc, hnewer, hunsettled⟩,
    hlater, List.isEmpty_iff.mp hlist, hd', Option.isNone_iff_eq_none.mp hgone⟩

end Arkeo.Sentinel
