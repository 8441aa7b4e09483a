import Arkeo.History

/-! # The index of users

The user sets are a secondary index over the contracts: a contract is listed in
the set of its spender from its opening to its final settlement
(`user_sets_index_contracts`).  What the index is for is the test that an open
subscription is not opened a second time.

That test reads the spender's set and compares the provider's key as it is
spelled, and a subscription that is settled in a block has left the set while it
still counts as open in that block.  `opens_once_iff` says exactly which openings
get past the test: those of a subscription that is open under another spelling of
the provider's key, or that was closed in the same block.  Both happen:
`second_subscription_opened`.
-/
namespace Arkeo
open Exec

variable {cr : Crypto} {ctx : Context} {s : ChainState} {w w' : World} {a : Action}

/-! ## Integrity -/

/-- The contracts and the user sets agree, and the next id is free. -/
structure ChainState.Indexed (s : ChainState) : Prop where
  /-- An unsettled contract is once in its spender's set, and in no other. -/
  unsettled : ∀ k c, s.contracts.lookup k = some c → c.settlementHeight = 0 →
    (s.userIds (toUpper c.getSpender)).count k = 1 ∧
      ∀ user, toUpper user ≠ toUpper c.getSpender → k ∉ s.userIds (toUpper user)
  settled : ∀ k c, s.contracts.lookup k = some c → c.settlementHeight ≠ 0 →
    ∀ key, k ∉ s.userIds key
  stored : ∀ key k, k ∈ s.userIds key → ∃ c, s.contracts.lookup k = some c ∧ c.id = k
  lt_next : ∀ k c, s.contracts.lookup k = some c → c.id = k ∧ k < s.getNextContractId

theorem Inv.index (hi : Inv cr ctx s) : s.Indexed where
  unsettled k c hc h0 := by
    refine ⟨List.count_eq_one_of_mem (hi.nodup _) (hi.indexed k c hc h0), ?_⟩
    intro user hne hk
    obtain ⟨c', hc', -, hkey⟩ := hi.owned _ k hk
    rw [hc] at hc'
    obtain rfl := Option.some.inj hc'
    exact hne hkey
  settled k c hc hs key := hi.not_mem_userIds hc hs key
  stored key k hk := by
    obtain ⟨c, hc, -⟩ := hi.owned key k hk
    exact ⟨c, hc, (hi.stored k c hc).id_eq⟩
  lt_next k c hc := ⟨(hi.stored k c hc).id_eq, (hi.stored k c hc).lt_next⟩

/-- **The user sets index the contracts.**  In every reachable state the index and
the contracts agree and the next id is free, so an opening overwrites no
contract. -/
theorem user_sets_index_contracts (hg : Genesis w) {actions : List Action}
    (h : Runs.run (step cr) w actions = some w') :
    w'.chain.Indexed ∧
      ∀ msg s, deliver cr w'.ctx (.openContract msg) w'.chain = some s →
        w'.chain.contracts.lookup w'.chain.getNextContractId = none ∧
        (∃ c, s.contracts.lookup w'.chain.getNextContractId = some c) ∧
        ∀ k c, w'.chain.contracts.lookup k = some c → s.contracts.lookup k = some c := by
  have hi := reachable_inv hg h
  refine ⟨hi.index, ?_⟩
  intro msg s hd
  obtain ⟨hv, hh⟩ := deliver_some hd
  obtain ⟨signer, service, c, -, -, -, ho, rfl⟩ := openContract_ok hi hv hh
  refine ⟨hi.lookup_next, ⟨c, ?_⟩, ?_⟩
  · rw [ChainState.opened_lookup, if_pos ho.id_eq.symm]
  · intro k d hd
    have hk : k ≠ c.id := by
      rintro rfl
      rw [ho.id_eq, hi.lookup_next] at hd
      cases hd
    rw [ChainState.opened_lookup, if_neg hk]
    exact hd

/-- When the sample run is over, the pay-as-you-go contract is settled and in no
user's set. -/
theorem user_sets_index_lifetimes : ∃ w c,
    Runs.run (step Sample.crypto) Sample.genesis (Sample.lifetimes ++ [.endBlock]) = some w ∧
    w.chain.contracts.lookup 2 = some c ∧ c.settlementHeight = 3 ∧
    ∀ key, 2 ∉ w.chain.userIds key := by
  obtain ⟨v, w, c, hv, hw, hc, -, -, hset, -⟩ := Sample.lifetimes_run
  have hrun : Runs.run (step Sample.crypto) Sample.genesis (Sample.lifetimes ++ [.endBlock]) =
      some w := Runs.run_append.mpr ⟨v, hv, Runs.run_cons.mpr ⟨w, hw, rfl⟩⟩
  have hindex := (user_sets_index_contracts Sample.genesis_ok hrun).1
  exact ⟨w, c, hrun, hc, hset, hindex.settled 2 c hc (by rw [hset]; decide)⟩

/-! ## One open subscription -/

/-- Two contracts have the same spender, provider and service, whatever the case of
the letters of the keys. -/
def Contract.SameParties (c c' : Contract) : Prop :=
  toUpper c.getSpender = toUpper c'.getSpender ∧ toUpper c.provider = toUpper c'.provider ∧
    c.service = c'.service

/-- At the height, no two open subscriptions have the same parties. -/
def ChainState.OneSubscription (s : ChainState) (height : Int64) : Prop :=
  ∀ k k' c c', s.contracts.lookup k = some c → s.contracts.lookup k' = some c' →
    c.isSubscription = true → c'.isSubscription = true →
    c.isOpen height = true → c'.isOpen height = true → c.SameParties c' → k = k'

/-- The open subscriptions with the parties a message names. -/
def ChainState.openSubscriptions (s : ChainState) (height : Int64) (msg : MsgOpenContract) :
    List Contract :=
  (s.contracts.entries.map Sigma.snd).filter fun c =>
    c.isSubscription && c.isOpen height && toUpper c.getSpender = toUpper msg.spender &&
      toUpper c.provider = toUpper msg.provider && s.serviceId? msg.service = some c.service

/-- **The guard.**  Where a subscription is opened, every subscription of the same
parties that is still open has the provider's key spelled as the message spells
it, and was not settled in this block. -/
def OpensOnce (cr : Crypto) (w : World) : Action → Prop
  | .msg (.openContract msg) =>
      msg.contractType = .subscription →
        ∀ c ∈ w.chain.openSubscriptions w.ctx.blockHeight msg,
          (deliver cr w.ctx (.openContract msg) w.chain).isSome →
            c.provider = msg.provider ∧ c.settlementHeight ≠ w.ctx.blockHeight
  | _ => True

instance : ∀ w a, Decidable (OpensOnce cr w a)
  | _, .msg (.openContract _) => inferInstanceAs (Decidable (_ → _))
  | _, .msg (.bondProvider _) => isTrue trivial
  | _, .msg (.modProvider _) => isTrue trivial
  | _, .msg (.closeContract _) => isTrue trivial
  | _, .msg (.claimContractIncome _) => isTrue trivial
  | _, .msg (.registerService _) => isTrue trivial
  | _, .msg (.updateService _) => isTrue trivial
  | _, .msg (.removeService _) => isTrue trivial
  | _, .send .. => isTrue trivial
  | _, .endBlock => isTrue trivial

theorem ChainState.mem_openSubscriptions (hi : Inv cr ctx s) {height : Int64}
    {msg : MsgOpenContract} {c : Contract} : c ∈ s.openSubscriptions height msg ↔
      s.contracts.lookup c.id = some c ∧ c.isSubscription = true ∧ c.isOpen height = true ∧
        toUpper c.getSpender = toUpper msg.spender ∧ toUpper c.provider = toUpper msg.provider ∧
        s.serviceId? msg.service = some c.service := by
  unfold openSubscriptions
  rw [List.mem_filter, List.mem_map]
  simp only [Bool.and_eq_true, decide_eq_true_eq]
  constructor
  · rintro ⟨⟨⟨k, d⟩, hd, rfl⟩, ⟨⟨⟨hsub, hopen⟩, huser⟩, hprov⟩, hsvc⟩
    have hl := AList.mem_entries.mp hd
    rw [(hi.stored k d hl).id_eq]
    exact ⟨hl, hsub, hopen, huser, hprov, hsvc⟩
  · rintro ⟨hl, hsub, hopen, huser, hprov, hsvc⟩
    exact ⟨⟨⟨c.id, c⟩, AList.mem_entries.mpr hl, rfl⟩, ⟨⟨⟨hsub, hopen⟩, huser⟩, hprov⟩, hsvc⟩

/-- A contract that is settled before the height is not open at it. -/
theorem Contract.isOpen_settled {c : Contract} {height : Int64} (hw : c.Wf cr)
    (ho : c.isOpen height = true) (hs : c.settlementHeight ≠ 0) :
    height.toInt ≤ c.settlementHeight.toInt := by
  have h0 := hw.settlementHeight_nonneg
  have hpos : 0 < c.settlementHeight := by
    rw [Int64.lt_iff_toInt_lt]
    refine lt_of_le_of_ne h0 ?_
    intro he
    exact hs (Int64.toInt_inj.mp he.symm)
  unfold isOpen at ho
  simp only [Bool.and_eq_true, Bool.not_eq_true', Bool.and_eq_false_iff,
    decide_eq_false_iff_not] at ho
  rcases ho.2 with h | h
  · exact absurd hpos h
  · rw [Int64.lt_iff_toInt_lt] at h
    omega

/-- A contract is open in the block that opens it. -/
theorem Opening.isOpen {signer : Bytes} {c : Contract} (ho : Opening cr ctx s signer c) :
    c.isOpen ctx.blockHeight = true := by
  have hlt := ho.wf.height_lt_expiration
  have hpos := ho.wf.height_pos
  have hne : c.height ≠ 0 := by
    intro h
    rw [h] at hpos
    exact absurd hpos (by decide)
  have hexp : ¬c.expiration < ctx.blockHeight := by
    rw [Int64.lt_iff_toInt_lt, ← ho.height_eq]
    omega
  unfold Contract.isOpen Contract.isEmpty
  rw [ho.settlementHeight_eq, decide_eq_false hne, decide_eq_false hexp]
  rfl

/-- An open contract stays open at earlier heights. -/
theorem Contract.isOpen_anti {c : Contract} {h h' : Int64} (hle : h.toInt ≤ h'.toInt)
    (ho : c.isOpen h' = true) : c.isOpen h = true := by
  unfold isOpen at ho ⊢
  simp only [Bool.and_eq_true, Bool.not_eq_true', Bool.and_eq_false_iff, decide_eq_false_iff_not,
    Int64.lt_iff_toInt_lt, not_lt] at ho ⊢
  obtain ⟨⟨hne, hexp⟩, hset⟩ := ho
  refine ⟨⟨hne, by omega⟩, ?_⟩
  rcases hset with h0 | h1
  · exact .inl h0
  · exact .inr (by omega)

theorem Contract.SameParties.symm {c c' : Contract} (h : c.SameParties c') : c'.SameParties c :=
  ⟨h.1.symm, h.2.1.symm, h.2.2.symm⟩

theorem Contract.SameParties.of_later {lo hi : ℤ} {c c' d d' : Contract} (h : c'.SameParties d')
    (hc : c.Later lo hi c') (hd : d.Later lo hi d') : c.SameParties d := by
  unfold SameParties at h ⊢
  rw [hc.getSpender_eq, hc.provider_eq, hc.service_eq, hd.getSpender_eq, hd.provider_eq,
    hd.service_eq] at h
  exact h

/-- A message that stores something was accepted. -/
theorem deliver_of_new {m : Msg} (hstep : step cr w (.msg m) = some w') {k : ℕ} {c : Contract}
    (hn : w.chain.contracts.lookup k = none) (hc : w'.chain.contracts.lookup k = some c) :
    (deliver cr w.ctx m w.chain).isSome := by
  cases hd : deliver cr w.ctx m w.chain with
  | some s => rfl
  | none =>
    simp only [step, hd] at hstep
    obtain rfl := Option.some.inj hstep
    rw [hn] at hc
    cases hc

/-- Where the guard is met, what a step opens has the parties of no subscription
that was open. -/
theorem OpensOnce.apart (hguard : OpensOnce cr w a) (h : Settled cr w)
    (hstep : step cr w a = some w') {k k' : ℕ} {c d : Contract} (hnew : OpenedNow cr w a k c)
    (hn : w.chain.contracts.lookup k = none) (hc : w'.chain.contracts.lookup k = some c)
    (hd : w.chain.contracts.lookup k' = some d) (hsub : c.isSubscription = true)
    (hsub' : d.isSubscription = true) (hopen : d.isOpen w.ctx.blockHeight = true) :
    ¬c.SameParties d := by
  obtain ⟨msg, service, signer, rfl, -, hsvc, hvac, hcm, hop⟩ := hnew
  rintro ⟨huser, hprov, hserv⟩
  have hst := h.inv.stored k' d hd
  have htype : msg.contractType = .subscription := by
    have ht : c.type = .subscription := by simpa [Contract.isSubscription] using hsub
    rw [hcm] at ht
    exact ht
  have hspend : c.getSpender = msg.spender := by rw [hop.wf.getSpender_eq, hcm]; rfl
  have hprovc : c.provider = msg.provider := by rw [hcm]; rfl
  have hservc : c.service = service := by rw [hcm]; rfl
  rw [hspend] at huser
  have hmem : d ∈ w.chain.openSubscriptions w.ctx.blockHeight msg := by
    refine (ChainState.mem_openSubscriptions h.inv).mpr
      ⟨by rw [hst.id_eq]; exact hd, hsub', hopen, huser.symm, ?_, ?_⟩
    · rw [← hprovc]
      exact hprov.symm
    · rw [hsvc, ← hservc, hserv]
  obtain ⟨hspell, hblock⟩ := hguard htype d hmem (deliver_of_new hstep hn hc)
  have h0 : d.settlementHeight = 0 := by
    by_contra hne
    have hge := Contract.isOpen_settled hst.wf hopen hne
    have hle := h.settledBy k' d hd
    exact hblock (Int64.toInt_inj.mp (by omega))
  -- the subscription is in the spender's set, and the scan would have found it
  have hk := h.inv.indexed k' d hd h0
  rw [← huser] at hk
  have hclosed := hvac (by rw [htype]; nofun) k' hk d hd hspell (by rw [← hservc, hserv])
  rw [hopen] at hclosed
  cases hclosed

/-- **One step.**  A step keeps the subscriptions apart if and only if it meets the
guard. -/
theorem step_oneSubscription (h : Settled cr w) (hone : w.chain.OneSubscription w.ctx.blockHeight)
    (hstep : step cr w a = some w') :
    OpensOnce cr w a ↔ w'.chain.OneSubscription w'.ctx.blockHeight := by
  have hi := h.inv
  have hlater := (step_outcome hi hstep).later hi
  constructor
  · intro hguard k k' c c' hc hc' hsub hsub' hopen hopen' hsame
    have hle := step_height hi hstep
    have hopen := Contract.isOpen_anti hle hopen
    have hopen' := Contract.isOpen_anti hle hopen'
    -- each of the two was there before the step, or was opened by it
    rcases hlater.origin k c hc with ⟨d, hd, hcd⟩ | ⟨hn, hnew⟩
    · rcases hlater.origin k' c' hc' with ⟨d', hd', hcd'⟩ | ⟨hn', hnew'⟩
      · rw [hcd.isSubscription_eq] at hsub
        rw [hcd'.isSubscription_eq] at hsub'
        exact hone k k' d d' hd hd' hsub hsub' (hcd.isOpen_of hopen) (hcd'.isOpen_of hopen')
          (hsame.of_later hcd hcd')
      · rw [hcd.isSubscription_eq] at hsub
        exact absurd (hsame.symm.of_later (.refl _ _ c') hcd)
          (hguard.apart h hstep hnew' hn' hc' hd hsub' hsub (hcd.isOpen_of hopen))
    · rcases hlater.origin k' c' hc' with ⟨d', hd', hcd'⟩ | ⟨hn', hnew'⟩
      · rw [hcd'.isSubscription_eq] at hsub'
        exact absurd (hsame.of_later (.refl _ _ c) hcd')
          (hguard.apart h hstep hnew hn hc hd' hsub hsub' (hcd'.isOpen_of hopen'))
      · obtain ⟨-, -, -, -, rfl, -⟩ := hnew
        obtain ⟨-, -, -, -, rfl, -⟩ := hnew'
        rfl
  · intro hone'
    unfold OpensOnce
    split
    · rename_i msg
      intro htype d hd hacc
      obtain ⟨s, hs⟩ := Option.isSome_iff_exists.mp hacc
      simp only [step, hs] at hstep
      obtain rfl := Option.some.inj hstep
      obtain ⟨hv, hh⟩ := deliver_some hs
      obtain ⟨signer, service, c, hsvc, -, hcm, ho, rfl⟩ := openContract_ok hi hv hh
      obtain ⟨hl, hsub, hopen, huser, hprov, hserv⟩ := (ChainState.mem_openSubscriptions hi).mp hd
      have hne : d.id ≠ c.id := by
        intro he
        rw [he, ho.id_eq, hi.lookup_next] at hl
        cases hl
      -- the old subscription and the new one are both open now
      refine absurd (hone' c.id d.id c d ?_ ?_ ?_ hsub ho.isOpen hopen ⟨?_, ?_, ?_⟩) hne.symm
      · rw [ChainState.opened_lookup, if_pos rfl]
      · rw [ChainState.opened_lookup, if_neg hne]
        exact hl
      · rw [hcm]
        exact decide_eq_true htype
      · rw [ho.wf.getSpender_eq, huser, hcm]
        rfl
      · rw [hprov, hcm]
        rfl
      · rw [hsvc] at hserv
        rw [← Option.some.inj hserv, hcm]
        rfl
    · trivial

/-- **One open subscription.**  In a run, the subscriptions of every state stay
apart, at its height and at every later one, if and only if every opening meets
the guard. -/
theorem opens_once_iff (hg : Genesis w) {actions : List Action} :
    Runs.Guarded (step cr) (OpensOnce cr) w actions ↔
      ∀ taken rest w', actions = taken ++ rest → Runs.run (step cr) w taken = some w' →
        ∀ height, w'.ctx.blockHeight ≤ height → w'.chain.OneSubscription height := by
  have hempty : w.chain.OneSubscription w.ctx.blockHeight := by
    intro k k' c c' hc
    rw [hg.contracts] at hc
    cases hc
  -- the end of a block opens nothing
  have hnone : ∀ v b, step cr v b = none → OpensOnce cr v b := by
    intro v b hb
    rw [step_eq_none hb]
    trivial
  have hiff : Runs.Guarded (step cr) (OpensOnce cr) w actions ↔
      ∀ taken rest w', actions = taken ++ rest → Runs.run (step cr) w taken = some w' →
        w'.chain.OneSubscription w'.ctx.blockHeight :=
    Runs.guarded_iff_forall (I := Settled cr)
      (P := fun v => v.chain.OneSubscription v.ctx.blockHeight)
      (fun _ _ _ h hstep => h.step hstep) hnone
      (fun _ _ _ h hone hstep => step_oneSubscription h hone hstep) hg.settled hempty
  rw [hiff]
  constructor
  · intro h taken rest w' hl hrun height hle k k' c c' hc hc' hsub hsub' hopen hopen' hsame
    rw [Int64.le_iff_toInt_le] at hle
    exact h taken rest w' hl hrun k k' c c' hc hc' hsub hsub' (Contract.isOpen_anti hle hopen)
      (Contract.isOpen_anti hle hopen') hsame
  · intro h taken rest w' hl hrun
    exact h taken rest w' hl hrun _ (Int64.le_refl _)

namespace Sample

/-- The provider's key in capitals, a bech32 string of the same key. -/
def capitals : String :=
  "ARKEOPUB1ADDWNPEPQVA40M3526VAZVY2KQ2T376UMW89E4755PT7JQVMMK07LLYWATHUVAECVKH"

/-- The codec takes both spellings of the provider's key. -/
def anyCase : Crypto :=
  Crypto.known [provider, client, { provider with pubKey := capitals }] [] [] []

theorem toUpper_capitals : toUpper provider.pubKey = toUpper capitals := by
  have hprovider : toUpper provider.pubKey = capitals := by decide +kernel
  have hcapitals : toUpper capitals = capitals := by decide +kernel
  rw [hprovider, hcapitals]

theorem setup_anyCase : Runs.run (step anyCase) genesis setup = some offering :=
  run_eq (by decide +kernel)

/-- The client opens a subscription, and another one when it is over. -/
def renewed : List Action :=
  setup ++
    [.msg (.openContract (openMsg .subscription 10)), .endBlock, .endBlock,
     .msg (.openContract (openMsg .subscription 10))]

/-- In one block the client opens a subscription, closes it, opens it again, and
once more with the provider's key in capitals. -/
def reopened : List Action :=
  setup ++
    [.msg (.openContract (openMsg .subscription 10)),
     .msg (.closeContract
      { creator := client.account, contractId := 1, client := some client.pubKey
        delegate := none }),
     .msg (.openContract (openMsg .subscription 10)),
     .msg (.openContract { openMsg .subscription 10 with provider := capitals })]

/-- Whether two contracts are open subscriptions of the same parties, with the
spender's key spelled alike. -/
def doubled (w : World) (k k' : ℕ) : Bool :=
  match w.chain.contracts.lookup k, w.chain.contracts.lookup k' with
  | some c, some d => c.isSubscription && d.isSubscription && c.isOpen w.ctx.blockHeight &&
      d.isOpen w.ctx.blockHeight && c.getSpender = d.getSpender &&
      decide (c.provider = d.provider ∨ toUpper c.provider = toUpper d.provider) &&
      c.service = d.service
  | _, _ => false

theorem not_oneSubscription_of_doubled {w : World} {k k' : ℕ} (h : doubled w k k' = true)
    (hne : k ≠ k') : ¬w.chain.OneSubscription w.ctx.blockHeight := by
  unfold doubled at h
  split at h
  · rename_i c d hc hd
    simp only [Bool.and_eq_true, decide_eq_true_eq] at h
    obtain ⟨⟨⟨⟨⟨⟨hsub, hsub'⟩, hopen⟩, hopen'⟩, hspend⟩, hprov⟩, hserv⟩ := h
    have hprov : toUpper c.provider = toUpper d.provider := by
      rcases hprov with he | he
      · rw [he]
      · exact he
    intro hone
    exact hne (hone k k' c d hc hd hsub hsub' hopen hopen' ⟨by rw [hspend], hprov, hserv⟩)
  · cases h

end Sample

/-- The guard is met where a subscription is renewed after its end. -/
theorem renewed_opens_once : ∃ w, Runs.run (step Sample.crypto) Sample.genesis Sample.renewed = some w ∧
    w.chain.OneSubscription w.ctx.blockHeight := by
  have hsome : (Runs.run (step Sample.crypto) Sample.genesis Sample.renewed).isSome = true := by
    rw [Sample.renewed, Runs.run_append_of Sample.setup_run]
    decide +kernel
  have hguard : Runs.Guarded (step Sample.crypto) (OpensOnce Sample.crypto) Sample.genesis
      Sample.renewed := by
    refine (Runs.guarded_of_mem (fun w a ha => ?_) _).append Sample.setup_run (by decide +kernel)
    simp only [Sample.setup, List.mem_cons, List.not_mem_nil, or_false] at ha
    obtain rfl | rfl := ha <;> trivial
  obtain ⟨w, hw⟩ := Option.isSome_iff_exists.mp hsome
  have hall := (opens_once_iff Sample.genesis_ok).mp hguard
  exact ⟨w, hw, hall Sample.renewed [] w (List.append_nil _).symm hw _ (Int64.le_refl _)⟩

/-- **A second subscription is opened.**  The first was closed in the same block and
counts as open to its end; the third differs from the second in the spelling of
the provider's key. -/
theorem second_subscription_opened : ∃ w,
    Runs.run (step Sample.anyCase) Sample.genesis Sample.reopened = some w ∧
    Sample.doubled w 1 2 = true ∧ Sample.doubled w 2 3 = true ∧
      ¬w.chain.OneSubscription w.ctx.blockHeight := by
  have h : ((Runs.run (step Sample.anyCase) Sample.genesis Sample.reopened).bind fun w =>
      (w.chain.contracts.lookup 2).bind fun c => (w.chain.contracts.lookup 3).map fun d =>
        (Sample.doubled w 1 2, c.isSubscription && d.isSubscription && c.isOpen w.ctx.blockHeight &&
          d.isOpen w.ctx.blockHeight && c.getSpender = d.getSpender, c.provider, d.provider,
          decide (c.service = d.service))) =
      some (true, true, Sample.provider.pubKey, Sample.capitals, true) := by
    rw [Sample.reopened, Runs.run_append_of Sample.setup_anyCase]
    decide +kernel
  obtain ⟨w, hw, h⟩ := Option.bind_eq_some_iff.mp h
  obtain ⟨c, hc, h⟩ := Option.bind_eq_some_iff.mp h
  obtain ⟨d, hd, h⟩ := Option.map_eq_some_iff.mp h
  simp only [Prod.mk.injEq] at h
  obtain ⟨hfirst, hopen, hprovider, hcapitals, hservice⟩ := h
  have hsecond : Sample.doubled w 2 3 = true := by
    have hkeys : toUpper c.provider = toUpper d.provider := by
      rw [hprovider, hcapitals, Sample.toUpper_capitals]
    unfold Sample.doubled
    rw [hc, hd]
    simp only
    rw [hopen, hservice, decide_eq_true (.inr hkeys)]
    rfl
  exact ⟨w, hw, hfirst, hsecond, Sample.not_oneSubscription_of_doubled hsecond (by decide)⟩

end Arkeo
