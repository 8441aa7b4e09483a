import Arkeo.Sentinel.Claims

/-! # The memory of the sentinel

Contracts get into memory in three ways: a look-up that has to ask the hub keeps the
answer, a request that is paid for keeps the contract with its nonce, and the event
of an opening adds the contract.  `Holds` is the invariant rule for them: what is
true of every contract in memory stays true under the sentinel's own calls, if it is
true of the hub's answers and says nothing of the nonce.
-/
namespace Arkeo.Sentinel
open Exec Text

variable {cr : Crypto} {cfg : Config} {hub : Hub} {s s' : State} {k : ℕ}

/-! ## Look-ups -/

/-- The contract is in memory and not expired: `MemStore.Get` does not ask. -/
def State.cached (s : State) (k : ℕ) : Bool :=
  match s.db.lookup k with
  | some c => !c.isExpired s.blockHeight
  | none => false

theorem memStoreGet_of_cached (hub : Hub) (h : s.cached k = true) :
    ∃ c, s.db.lookup k = some c ∧ memStoreGet hub k s = (some c, s) := by
  unfold State.cached at h
  cases hl : s.db.lookup k with
  | none =>
    rw [hl] at h
    cases h
  | some c =>
    rw [hl] at h
    simp only [Bool.not_eq_true'] at h
    refine ⟨c, rfl, ?_⟩
    simp only [memStoreGet, hl, h]
    rfl

theorem memStoreGet_of_not_cached (hub : Hub) (h : s.cached k = false) :
    memStoreGet hub k s = fetchAndCache hub k s := by
  unfold State.cached at h
  unfold memStoreGet
  cases hl : s.db.lookup k with
  | none => rfl
  | some c =>
    rw [hl] at h
    simp only [Bool.not_eq_false'] at h
    exact if_pos h

@[simp] theorem fetchAndCache_blockHeight (hub : Hub) (k : ℕ) (s : State) :
    (fetchAndCache hub k s).2.blockHeight = s.blockHeight := by
  unfold fetchAndCache fetchContract
  cases hub s.fetches k with
  | none => rfl
  | some r =>
    simp only [Option.map_some]
    split <;> rfl

/-- A look-up only adds to memory, under the key it is for. -/
theorem fetchAndCache_lookup (hub : Hub) {j : ℕ} (hj : j ≠ k) :
    (fetchAndCache hub k s).2.db.lookup j = s.db.lookup j := by
  unfold fetchAndCache fetchContract
  cases hub s.fetches k with
  | none => rfl
  | some r =>
    simp only [Option.map_some]
    split
    · rfl
    · exact AList.lookup_insert_ne hj

/-- What was in memory stays there. -/
theorem cached_memStoreGet (hub : Hub) {j : ℕ} (h : s.cached j = true) :
    (memStoreGet hub k s).2.cached j = true := by
  cases hk : s.cached k with
  | true =>
    obtain ⟨c, -, hg⟩ := memStoreGet_of_cached hub hk
    rw [hg]
    exact h
  | false =>
    have hj : j ≠ k := by
      rintro rfl
      rw [hk] at h
      cases h
    rw [memStoreGet_of_not_cached hub hk]
    unfold State.cached at h ⊢
    rw [fetchAndCache_lookup hub hj, fetchAndCache_blockHeight]
    exact h

@[simp] theorem memStoreGet_blockHeight (hub : Hub) (k : ℕ) (s : State) :
    (memStoreGet hub k s).2.blockHeight = s.blockHeight := by
  unfold memStoreGet
  split
  · split
    · exact fetchAndCache_blockHeight hub k s
    · rfl
  · exact fetchAndCache_blockHeight hub k s

theorem contractOf_blockHeight (hub : Hub) (aa : ArkAuth) (s : State) :
    (contractOf hub aa s).2.blockHeight = s.blockHeight := by
  unfold contractOf
  split
  · exact memStoreGet_blockHeight hub _ s
  · rfl

theorem memStoreGet_configs (hub : Hub) (k : ℕ) (s : State) :
    (memStoreGet hub k s).2.configs = s.configs := by
  cases hk : s.cached k with
  | true =>
    obtain ⟨c, -, hg⟩ := memStoreGet_of_cached hub hk
    rw [hg]
  | false =>
    rw [memStoreGet_of_not_cached hub hk]
    unfold fetchAndCache fetchContract
    cases hub s.fetches k with
    | none => rfl
    | some r =>
      simp only [Option.map_some]
      split <;> rfl

theorem isExpired_zero (h : Int64) : (FetchContract.contract {}).isExpired h = true := by
  have hempty : (FetchContract.contract {}).life.isEmpty = true := by decide +kernel
  unfold CachedContract.isExpired Contract.isExpired Contract.isOpen
  rw [hempty]
  rfl

/-- A contract without a height is none. -/
theorem isExpired_of_height {c : CachedContract} (h : c.height = 0) (t : Int64) :
    c.isExpired t = true := by
  simp [CachedContract.isExpired, CachedContract.life, Contract.isExpired, Contract.isOpen,
    Contract.isEmpty, h]

/-! ## The invariant rule -/

/-- Everything in memory has the property, and is there under its own id. -/
def Holds (P : ℕ → CachedContract → Prop) (s : State) : Prop :=
  ∀ k c, s.db.lookup k = some c → c.id = k ∧ P k c

/-- Where the hub would be asked for a contract, its answer has the property. -/
def Answered (P : ℕ → CachedContract → Prop) (hub : Hub) (s : State) (k : ℕ) : Prop :=
  s.cached k = false → ∀ n r h, hub n k = some r → r.contract.isExpired h = false →
    r.contract.id = k ∧ P k r.contract

section
variable {P : ℕ → CachedContract → Prop}

theorem Holds.of_eq (h : Holds P s) (he : s'.db = s.db) : Holds P s' := by
  intro k c hl
  rw [he] at hl
  exact h k c hl

theorem holds_of_empty (h : s.db = ∅) : Holds P s := by
  intro k c hl
  rw [h] at hl
  cases hl

theorem Holds.put (h : Holds P s) {c : CachedContract} (hc : P c.id c) :
    Holds P (memStorePut c s) := by
  intro k d hl
  unfold memStorePut at hl
  simp only at hl
  split at hl
  · by_cases hk : k = c.id
    · rw [hk, AList.lookup_erase] at hl
      cases hl
    · rw [AList.lookup_erase_ne hk] at hl
      exact h k d hl
  · by_cases hk : k = c.id
    · subst hk
      rw [AList.lookup_insert] at hl
      cases hl
      exact ⟨rfl, hc⟩
    · rw [AList.lookup_insert_ne hk] at hl
      exact h k d hl

/-- What a look-up gives, where the answers of the hub are known: the contract it was
for, or the zero contract of an error body. -/
theorem Holds.found (h : Holds P s) (ha : s.cached k = false → ∀ n r, hub n k = some r →
    r = {} ∨ r.contract.id = k ∧ P k r.contract) :
    Holds P (memStoreGet hub k s).2 ∧ ∀ c, (memStoreGet hub k s).1 = some c →
      c = FetchContract.contract {} ∨ c.id = k ∧ P k c := by
  cases hc : s.cached k with
  | true =>
    obtain ⟨c, hl, hg⟩ := memStoreGet_of_cached hub hc
    rw [hg]
    refine ⟨h, ?_⟩
    intro d hd
    rw [← Option.some.inj hd]
    exact .inr (h k c hl)
  | false =>
    rw [memStoreGet_of_not_cached hub hc]
    unfold fetchAndCache fetchContract
    cases hr : hub s.fetches k with
    | none =>
      refine ⟨h, ?_⟩
      intro c hsome
      cases hsome
    | some r =>
      have hans := ha hc _ r hr
      simp only [Option.map_some]
      refine ⟨?_, ?_⟩
      · split
        · exact h
        · rename_i hexp
          intro j c hl
          simp only at hl
          by_cases hj : j = k
          · subst hj
            rw [AList.lookup_insert] at hl
            rw [← Option.some.inj hl]
            rcases hans with rfl | hans
            · rw [isExpired_zero] at hexp
              exact absurd rfl hexp
            · exact hans
          · rw [AList.lookup_insert_ne hj] at hl
            exact h j c hl
      · intro c hsome
        rw [← Option.some.inj hsome]
        rcases hans with rfl | hans
        · exact .inl rfl
        · exact .inr hans

/-- A look-up keeps the memory, and what it finds unexpired has the property. -/
theorem Holds.memStoreGet (h : Holds P s) (ha : Answered P hub s k) :
    Holds P (memStoreGet hub k s).2 ∧ ∀ c, (Sentinel.memStoreGet hub k s).1 = some c →
      c.isExpired s.blockHeight = false → c.id = k ∧ P k c := by
  cases hc : s.cached k with
  | true =>
    obtain ⟨c, hl, hg⟩ := memStoreGet_of_cached hub hc
    rw [hg]
    refine ⟨h, ?_⟩
    rintro _ ⟨⟩ _
    exact h k c hl
  | false =>
    rw [memStoreGet_of_not_cached hub hc]
    unfold fetchAndCache fetchContract
    cases hr : hub s.fetches k with
    | none =>
      refine ⟨h, ?_⟩
      intro c hsome
      cases hsome
    | some r =>
      have hans := ha hc _ r s.blockHeight hr
      simp only [Option.map_some]
      refine ⟨?_, ?_⟩
      · split
        · exact h
        · rename_i hexp
          intro j c hl
          simp only at hl
          by_cases hj : j = k
          · subst hj
            rw [AList.lookup_insert] at hl
            rw [← Option.some.inj hl]
            exact hans (eq_false_of_ne_true hexp)
          · rw [AList.lookup_insert_ne hj] at hl
            exact h j c hl
      · intro c hsome hexp
        rw [← Option.some.inj hsome] at hexp ⊢
        exact hans hexp

theorem Holds.contractOf (h : Holds P s) {aa : ArkAuth} (ha : Answered P hub s aa.contractId) :
    Holds P (contractOf hub aa s).2 := by
  unfold Sentinel.contractOf
  split
  · exact (h.memStoreGet ha).1
  · exact h

/-- A second look-up asks only where the first may. -/
theorem Answered.again (h : Answered P hub s k) (j : ℕ) :
    Answered P hub (memStoreGet hub j s).2 k := by
  intro hc
  refine h ?_
  cases hk : s.cached k with
  | false => rfl
  | true =>
    rw [cached_memStoreGet hub hk] at hc
    cases hc

/-- The property does not depend on the nonce. -/
def NonceFree (P : ℕ → CachedContract → Prop) : Prop :=
  ∀ k c n, P k c → P k { c with nonce := n }

theorem Holds.paidTier (hP : NonceFree P) (h : Holds P s) {aa : ArkAuth}
    (ha : Answered P hub s aa.contractId) (limited : Bool) :
    Holds P (finalStore (paidTier cr cfg hub aa limited s)) := by
  obtain ⟨hmem, hfound⟩ := h.memStoreGet ha
  have ho := paidTier_outcome cr cfg hub aa limited s
  generalize Sentinel.paidTier cr cfg hub aa limited s = r at ho ⊢
  cases ho with
  | refused e => exact hmem
  | openly c t hg had ho =>
    rw [hg] at hmem
    exact hmem
  | stored c t u hg had ho hsig hf hu _ hr =>
    have hheight := memStoreGet_blockHeight hub aa.contractId s
    rw [hg] at hmem hfound hheight
    have hexp := had.unexpired
    rw [show t.blockHeight = s.blockHeight from hheight] at hexp
    obtain ⟨hid, hp⟩ := hfound c rfl hexp
    have hput : Holds P u := by
      have hwith : Holds P (t.withClaim cfg (aa.inferSpender c)) := Holds.of_eq hmem rfl
      rw [hu]
      refine hwith.put (hP _ c _ ?_)
      show P c.id c
      rw [hid]
      exact hp
    rcases hr with ⟨-, rfl⟩ | rfl
    · exact hput
    · exact hput

theorem Holds.auth (hP : NonceFree P) (h : Holds P s) {r : Request}
    (ha : Answered P hub s (r.key cr cfg)) : Holds P (auth cr cfg hub r s).2 := by
  have hmem := (h.memStoreGet ha).1
  have ho := auth_outcome cr cfg hub r s
  generalize Sentinel.auth cr cfg hub r s = out at ho ⊢
  cases ho with
  | idle resp hresp => exact h
  | looked resp hresp => exact hmem
  | whitelisted c t hg hw =>
    rw [hg] at hmem
    exact hmem
  | tiered aa hkey t ht resp hresp =>
    rw [hkey] at ha hmem
    rcases ht with rfl | rfl
    · exact h.paidTier hP ha r.limited
    · exact hmem.paidTier hP (ha.again aa.contractId) r.limited

/-- A visit changes the memory as its look-up does. -/
theorem visitClaim_memory (hub : Hub) (acc : List Claim × State) {claim : Claim}
    (hcl : claim.claimed = false) :
    (visitClaim hub acc claim).2.db = (memStoreGet hub claim.contractId acc.2).2.db ∧
      (visitClaim hub acc claim).2.blockHeight =
        (memStoreGet hub claim.contractId acc.2).2.blockHeight := by
  unfold visitClaim
  rw [hcl, if_neg Bool.false_ne_true]
  split
  · rename_i hg
    rw [hg]
    exact ⟨rfl, rfl⟩
  · rename_i hg
    rw [hg]
    split <;> exact ⟨rfl, rfl⟩

theorem Holds.handleOpenClaims (h : Holds P s)
    (ha : ∀ claim ∈ claimStoreList s, claim.claimed = false →
      Answered P hub s claim.contractId) : Holds P (handleOpenClaims hub s).2 := by
  have hfold : ∀ (claims : List Claim) (acc : List Claim × State), Holds P acc.2 →
      (∀ claim ∈ claims, claim.claimed = false → Answered P hub acc.2 claim.contractId) →
      Holds P (claims.foldl (visitClaim hub) acc).2 := by
    intro claims
    induction claims with
    | nil => exact fun _ hacc _ => hacc
    | cons claim claims ih =>
      intro acc hacc hans
      obtain ⟨hhead, htail⟩ := List.forall_mem_cons.mp hans
      cases hcl : claim.claimed with
      | true =>
        have hvisit : visitClaim hub acc claim = acc := by simp [visitClaim, hcl]
        rw [List.foldl_cons, hvisit]
        exact ih acc hacc htail
      | false =>
        obtain ⟨hdb, hheight⟩ := visitClaim_memory hub acc hcl
        refine ih _ ((hacc.memStoreGet (hhead hcl)).1.of_eq hdb) ?_
        intro c hc hunclaimed hnot
        refine (htail c hc hunclaimed).again claim.contractId ?_
        unfold State.cached at hnot ⊢
        rw [← hdb, ← hheight]
        exact hnot
  exact hfold _ _ h ha

theorem Holds.handleContract (h : Holds P s) {id raw : String} (m : Method)
    (ha : ∀ n, read (parseUint id) = some n → Answered P hub s (configGet n s).contractId) :
    Holds P (handleContract cr hub id raw m s).2 := by
  unfold Sentinel.handleContract
  split
  · rename_i n auth hid _
    simp only
    split
    · exact h
    have hmem := (h.memStoreGet (ha n hid)).1
    split
    · rename_i hg
      rw [hg] at hmem
      exact hmem
    · rename_i hg
      rw [hg] at hmem
      split
      · exact hmem
      · cases m with
        | get => exact Holds.of_eq hmem rfl
        | post ips => cases ips <;> exact Holds.of_eq hmem rfl
        | other => exact Holds.of_eq hmem rfl
  · exact h

/-- A closed contract leaves the memory. -/
theorem handleCloseContract_lookup (id : ℕ) (service : String) (client delegate : PubKey)
    (s : State) (j : ℕ) :
    (handleCloseContract cfg id cfg.providerPubKey service client delegate s).db.lookup j =
      if j = id then none else s.db.lookup j := by
  unfold Sentinel.handleCloseContract memStorePut
  rw [if_neg (fun h => h rfl)]
  simp (disch := rfl) only [isExpired_of_height, if_true]
  by_cases hj : j = id
  · rw [if_pos hj, hj]
    exact AList.lookup_erase _ _
  · rw [if_neg hj]
    exact AList.lookup_erase_ne hj

theorem Holds.handleCloseContract (h : Holds P s) (id : ℕ) (provider : PubKey)
    (service : String) (client delegate : PubKey) :
    Holds P (handleCloseContract cfg id provider service client delegate s) := by
  by_cases hp : provider = cfg.providerPubKey
  · subst hp
    intro k c hl
    rw [handleCloseContract_lookup] at hl
    split at hl
    · cases hl
    · exact h k c hl
  · unfold Sentinel.handleCloseContract
    rw [if_pos hp]
    exact h

/-- What the event of an opening puts into memory. -/
def CachedContract.ofEvent (e : EventOpenContract) : CachedContract where
  provider := e.provider
  service := serviceLookup e.service
  client := e.client
  delegate := e.delegate
  type := e.type
  height := e.height
  duration := e.duration
  rate := (e.rate.denom, some e.rate.amount)
  deposit := some e.deposit
  id := e.contractId
  settlementDuration := e.settlementDuration
  authorization := e.authorization
  queriesPerMinute := e.queriesPerMinute

theorem Holds.handleOpenContract (h : Holds P s) {e : EventOpenContract}
    (he : e.provider = cfg.providerPubKey → P e.contractId (.ofEvent e)) :
    Holds P (handleOpenContract cfg e s) := by
  unfold Sentinel.handleOpenContract
  split
  · exact h
  · rename_i hnot
    have hput := h.put (c := .ofEvent e) (he (not_not.mp (not_or.mp hnot).1))
    exact hput

end

/-! ## What leaves the memory alone -/

theorem handleMarkClaimed_db (id nonce : ℕ) (s : State) :
    (handleMarkClaimed id nonce s).db = s.db := by
  unfold handleMarkClaimed
  split
  · split <;> rfl
  · rfl

theorem handleSettlement_db (cfg : Config) (e : Settlement) (s : State) :
    (handleSettlement cfg e s).db = s.db := by
  unfold handleSettlement
  split
  · simp only
    split <;> rfl
  · rfl

theorem handleNewBlock_db (cfg : Config) (height : Int64) (es : List Settlement) (s : State) :
    (handleNewBlock cfg height es s).db = s.db := by
  have hfold : ∀ t : State, (es.foldl (fun s e => handleSettlement cfg e s) t).db = t.db := by
    induction es with
    | nil => exact fun _ => rfl
    | cons e es ih => exact fun t => (ih _).trans (handleSettlement_db cfg e t)
  exact hfold { s with blockHeight := height }

/-! ## Every step -/

/-- **The invariant rule.**  What is true of the hub's answers and of the contracts in
the events is true of everything in memory. -/
theorem Holds.step {P : ℕ → CachedContract → Prop} {w w' : World} {a : Action}
    (hP : NonceFree P) (h : Holds P w.state) (ha : ∀ k, Answered P hub w.state k)
    (ho : ∀ e, a = .opened e → e.provider = cfg.providerPubKey → P e.contractId (.ofEvent e))
    (hs : step cr cfg hub w a = some w') : Holds P w'.state := by
  cases a with
  | request r =>
    cases hs
    exact h.auth hP (ha _)
  | openClaims =>
    cases hs
    exact h.handleOpenClaims fun claim _ _ => ha claim.contractId
  | markClaimed id nonce =>
    cases hs
    exact h.of_eq (handleMarkClaimed_db id nonce w.state)
  | manage id raw m =>
    cases hs
    exact h.handleContract m fun n _ => ha _
  | opened e =>
    cases hs
    exact h.handleOpenContract (ho e rfl)
  | closed id provider service client delegate =>
    cases hs
    exact h.handleCloseContract id provider service client delegate
  | settled e =>
    cases hs
    exact h.of_eq (handleSettlement_db cfg e w.state)
  | newBlock height es =>
    cases hs
    exact h.of_eq (handleNewBlock_db cfg height es w.state)
  | restart =>
    cases hs
    exact holds_of_empty rfl

end Arkeo.Sentinel
