import Arkeo.Settlement

/-! # The invariant of the store

`Inv` is what every reachable store satisfies: records are well formed and
stored under their own ids, the index of users lists exactly the contracts that
are not settled, each once, and the contract module holds what remains of all
deposits.

It is proved here to be kept by each of the ways the store changes: a settlement
(`Inv.settle`), a new contract (`Inv.opened`), a write of an expiration set
(`Inv.list`, `Inv.unlist`), and a step that touches no contract (`Inv.quiet`).
-/
namespace Arkeo
open Exec

/-- What remains of the deposits in a denomination. -/
def ChainState.owed (s : ChainState) (d : String) : ℤ :=
  s.contracts.sumOver fun _ c => if c.rate.denom = d then c.remaining else 0

/-- A contract as it stands in the store under the id `k`. -/
structure Stored (cr : Crypto) (ctx : Context) (next k : ℕ) (c : Contract) : Prop where
  id_eq : c.id = k
  wf : c.Wf cr
  height_le : c.height.toInt ≤ ctx.blockHeight.toInt
  lt_next : k < next
  nonce_fits : c.type = .payAsYouGo → c.rate.amount * c.nonce.toInt < 2 ^ 256

structure Inv (cr : Crypto) (ctx : Context) (s : ChainState) : Prop where
  setHeights : s.SetHeights
  setUsers : s.SetUsers
  stored : ∀ k c, s.contracts.lookup k = some c →
    Stored cr ctx s.getNextContractId k c
  /-- An unsettled contract is in its user's set. -/
  indexed : ∀ k c, s.contracts.lookup k = some c → c.settlementHeight = 0 →
    k ∈ s.userIds (toUpper c.getSpender)
  /-- A user's set has only unsettled contracts of that user. -/
  owned : ∀ key k, k ∈ s.userIds key →
    ∃ c, s.contracts.lookup k = some c ∧ c.settlementHeight = 0 ∧ key = toUpper c.getSpender
  nodup : ∀ key, (s.userIds key).Nodup
  nonneg : s.bank.Nonneg
  supply : ∀ d, s.bank.supply d < 2 ^ 256
  solvent : ∀ d, s.owed d ≤ s.balance (.module .contract) d
  durations : ∀ key p, s.providers.lookup key = some p →
    p.maxContractDuration.toInt ≤ (fetchConfig .maxContractLength).toInt

variable {cr : Crypto} {ctx : Context} {s s' : ChainState} {c : Contract}

namespace Inv

/-- A settled contract is in no user's set. -/
theorem not_mem_userIds (hi : Inv cr ctx s) {k : ℕ} (hc : s.contracts.lookup k = some c)
    (hs : c.settlementHeight ≠ 0) (key : String) : k ∉ s.userIds key := by
  intro hk
  obtain ⟨c', hc', h0, -⟩ := hi.owned key k hk
  rw [hc] at hc'
  obtain rfl := Option.some.inj hc'
  exact hs h0

theorem remaining_nonneg (hi : Inv cr ctx s) (d : String) (k : ℕ) (c : Contract)
    (hc : s.contracts.lookup k = some c) : 0 ≤ if c.rate.denom = d then c.remaining else 0 := by
  have := (hi.stored k c hc).wf.remaining_nonneg
  split <;> omega

/-- What remains of one deposit is in the module. -/
theorem remaining_le_balance (hi : Inv cr ctx s) {k : ℕ} (hc : s.contracts.lookup k = some c) :
    c.remaining ≤ s.balance (.module .contract) c.rate.denom := by
  have hle := AList.valueAt_le_sumOver (hi.remaining_nonneg c.rate.denom) k
  rw [AList.valueAt_of_lookup hc, if_pos rfl] at hle
  exact hle.trans (hi.solvent c.rate.denom)

/-- The invariant does not depend on the height, except that no contract is from
the future. -/
theorem next (hi : Inv cr ctx s) {ctx' : Context}
    (h : ctx.blockHeight.toInt ≤ ctx'.blockHeight.toInt) : Inv cr ctx' s :=
  { hi with
    stored := fun k c hc => { hi.stored k c hc with
      height_le := (hi.stored k c hc).height_le.trans h } }

/-! ## Steps that touch no contract -/

theorem quiet (hi : Inv cr ctx s) (hc : s'.contracts = s.contracts)
    (hh : s'.SetHeights) (hu : s'.userSets = s.userSets)
    (hn : s'.nextContractId = s.nextContractId) (hnn : s'.bank.Nonneg)
    (hsup : ∀ d, s'.bank.supply d = s.bank.supply d)
    (hb : ∀ d, s.balance (.module .contract) d ≤ s'.balance (.module .contract) d)
    (hp : ∀ key p, s'.providers.lookup key = some p →
      p.maxContractDuration.toInt ≤ (fetchConfig .maxContractLength).toInt) : Inv cr ctx s' := by
  have hids : ∀ key, s'.userIds key = s.userIds key := by
    intro key
    rw [ChainState.userIds, hu, ← ChainState.userIds]
  have hnext : s'.getNextContractId = s.getNextContractId := by
    unfold ChainState.getNextContractId
    rw [hn]
  refine
    { setHeights := hh, setUsers := hi.setUsers.of_eq hu, stored := ?_, indexed := ?_, owned := ?_,
      nodup := ?_, nonneg := hnn, supply := ?_, solvent := ?_, durations := hp }
  · intro k c h
    rw [hc] at h
    rw [hnext]
    exact hi.stored k c h
  · intro k c h h0
    rw [hc] at h
    rw [hids]
    exact hi.indexed k c h h0
  · intro key k hk
    rw [hids] at hk
    rw [hc]
    exact hi.owned key k hk
  · intro key
    rw [hids]
    exact hi.nodup key
  · intro d
    rw [hsup]
    exact hi.supply d
  · intro d
    rw [ChainState.owed, hc, ← ChainState.owed]
    exact (hi.solvent d).trans (hb d)

theorem list (hi : Inv cr ctx s) (t : Int64) (id : ℕ) : Inv cr ctx (s.list t id) :=
  { hi with setHeights := hi.setHeights.list t id }

theorem unlist (hi : Inv cr ctx s) (t : Int64) : Inv cr ctx (s.unlist t) :=
  { hi with setHeights := hi.setHeights.unlist t }

/-! ## A settlement -/

/-- The record a settlement starts from: a stored one, with the nonce raised. -/
theorem wf_raiseNonce (hw : c.Wf cr) (nonce : Int64) : (c.raiseNonce nonce).Wf cr := by
  refine { hw with nonce_nonneg := ?_ }
  have h0 := hw.nonce_nonneg
  unfold Contract.raiseNonce
  simp only
  split
  · rename_i h
    rw [gt_iff_lt, Int64.lt_iff_toInt_lt] at h
    omega
  · exact h0

theorem wf_settled (ctx : Context) (hw : c.Wf cr) (isFinal : Bool) : (c.settled ctx isFinal).Wf cr := by
  have hd0 := Contract.debt_nonneg ctx hw.paid_le
  have hdle := Contract.debt_le ctx hw.paid_le
  have hp0 := hw.paid_nonneg
  have hdf := hw.deposit_fits
  have hpd := hw.settled_paid
  unfold Contract.remaining at hdle
  refine { hw with
    paid_nonneg := ?_, paid_le := ?_, deposit_fits := ?_, settlementHeight_nonneg := ?_,
    settled_paid := ?_ }
  · simp only [Contract.settled]
    omega
  · simp only [Contract.settled]
    split <;> omega
  · simp only [Contract.settled]
    split <;> omega
  · simp only [Contract.settled]
    have := ctx.pos
    have := hw.settlementHeight_nonneg
    split <;> omega
  · simp only [Contract.settled]
    cases isFinal with
    | true => simp
    | false =>
      intro hne
      have := hpd hne
      simp only [Bool.false_eq_true, if_false]
      omega

/-- What remains of the deposits after a record is rewritten. -/
theorem owed_settle (hc : s.contracts.lookup c.id = some c) (nonce : Int64) (isFinal : Bool)
    (d : String) : (s.settle cr ctx (c.raiseNonce nonce) isFinal).owed d = s.owed d -
      if d = c.rate.denom then
        c.remaining - ((c.raiseNonce nonce).settled ctx isFinal).remaining else 0 := by
  have hv := AList.valueAt_of_lookup
    (f := fun (_ : ℕ) (c : Contract) => if c.rate.denom = d then c.remaining else 0) hc
  have hden : ((c.raiseNonce nonce).settled ctx isFinal).rate = c.rate := rfl
  unfold ChainState.owed
  rw [ChainState.settle_contracts, AList.sumOver_insert, Contract.raiseNonce_id, hv]
  simp only [hden]
  by_cases hd : c.rate.denom = d
  · simp only [hd, if_true]
    omega
  · simp [hd, Ne.symm hd]

/-- The module holds what a settlement pays out. -/
theorem payout_le_balance (hi : Inv cr ctx s) (hc : s.contracts.lookup c.id = some c)
    (nonce : Int64) (isFinal : Bool) :
    c.remaining - ((c.raiseNonce nonce).settled ctx isFinal).remaining ≤
      s.balance (.module .contract) c.rate.denom := by
  have hw := wf_raiseNonce (hi.stored _ c hc).wf nonce
  have h1 := hi.remaining_le_balance hc
  have h2 := (wf_settled ctx hw isFinal).remaining_nonneg
  omega

/-- **A settlement keeps the invariant.**  A final one needs a contract that is
not settled yet. -/
theorem settle (hi : Inv cr ctx s) (hc : s.contracts.lookup c.id = some c) (nonce : Int64)
    (hf : (c.raiseNonce nonce).DueFits ctx) (isFinal : Bool) :
    Inv cr ctx (s.settle cr ctx (c.raiseNonce nonce) isFinal) := by
  have hst := hi.stored _ c hc
  have hw := wf_raiseNonce hst.wf nonce
  have hlook : ∀ k, (s.settle cr ctx (c.raiseNonce nonce) isFinal).contracts.lookup k =
      if k = c.id then some ((c.raiseNonce nonce).settled ctx isFinal)
      else s.contracts.lookup k := s.settle_lookup cr ctx (c.raiseNonce nonce) isFinal
  have hids : ∀ key, (s.settle cr ctx (c.raiseNonce nonce) isFinal).userIds key =
      if isFinal = true ∧ key = toUpper c.getSpender then (s.userIds key).erase c.id
      else s.userIds key := s.settle_userIds cr ctx (c.raiseNonce nonce) isFinal
  have hnext : (s.settle cr ctx (c.raiseNonce nonce) isFinal).getNextContractId =
      s.getNextContractId := by
    unfold ChainState.getNextContractId
    rw [ChainState.settle_nextContractId]
  refine
    { setHeights := ?_, setUsers := ChainState.SetUsers.settle _ _ _ _ _ hi.setUsers, stored := ?_,
      indexed := ?_, owned := ?_, nodup := ?_,
      nonneg := ChainState.settle_nonneg hw.paid_le hi.nonneg (hi.payout_le_balance hc nonce isFinal),
      supply := ?_, solvent := ?_, durations := ?_ }
  · intro t set h
    rw [ChainState.settle_expirationSets] at h
    exact hi.setHeights t set h
  · intro k' c' h
    rw [hlook] at h
    rw [hnext]
    by_cases hk : k' = c.id
    · rw [if_pos hk] at h
      cases h
      subst hk
      refine ⟨rfl, wf_settled ctx hw isFinal, hst.height_le, hst.lt_next, ?_⟩
      intro ht
      have hlt := hf.natAbs_lt
      rw [(Contract.due_payAsYouGo ctx (show (c.raiseNonce nonce).type = .payAsYouGo from ht)).1] at hlt
      exact lt_of_le_of_lt Int.le_natAbs (by exact_mod_cast hlt)
    · rw [if_neg hk] at h
      exact hi.stored k' c' h
  · intro k' c' h h0
    rw [hlook] at h
    rw [hids]
    by_cases hk : k' = c.id
    · rw [if_pos hk] at h
      cases h
      subst hk
      cases isFinal with
      | true =>
        have hpos := ctx.pos
        have h0' : ctx.blockHeight = 0 := h0
        rw [h0'] at hpos
        exact absurd hpos (by decide)
      | false =>
        rw [if_neg (fun h => Bool.false_ne_true h.1)]
        exact hi.indexed _ c hc h0
    · rw [if_neg hk] at h
      have hmem := hi.indexed k' c' h h0
      by_cases hfin : isFinal = true ∧ toUpper c'.getSpender = toUpper c.getSpender
      · rw [if_pos hfin]
        exact (List.mem_erase_of_ne hk).mpr hmem
      · rw [if_neg hfin]
        exact hmem
  · intro key k' hk'
    rw [hids] at hk'
    have hmem : k' ∈ s.userIds key := by
      by_cases hfin : isFinal = true ∧ key = toUpper c.getSpender
      · rw [if_pos hfin] at hk'
        exact List.mem_of_mem_erase hk'
      · rw [if_neg hfin] at hk'
        exact hk'
    obtain ⟨c', hc', h0, hkey⟩ := hi.owned key k' hmem
    rw [hlook]
    by_cases hk : k' = c.id
    · subst hk
      obtain rfl := Option.some.inj (hc.symm.trans hc')
      cases isFinal with
      | true =>
        rw [if_pos ⟨rfl, hkey⟩] at hk'
        exact absurd hk' (hi.nodup key).not_mem_erase
      | false => exact ⟨(c.raiseNonce nonce).settled ctx false, if_pos rfl, h0, hkey⟩
    · exact ⟨c', by rw [if_neg hk]; exact hc', h0, hkey⟩
  · intro key
    rw [hids]
    split
    · exact (hi.nodup key).erase c.id
    · exact hi.nodup key
  · intro d
    rw [ChainState.settle_supply]
    exact hi.supply d
  · intro d
    have hso := hi.solvent d
    rw [owed_settle hc, ChainState.settle_balance, Contract.raiseNonce_rate,
      Contract.raiseNonce_remaining]
    split <;> omega
  · intro key p h
    rw [ChainState.settle_providers] at h
    exact hi.durations key p h

end Inv

/-! ## A new contract -/

/-- The transfers of an opening: the cost and the deposit. -/
def ChainState.charged (s : ChainState) (signer : Bytes) (c : Contract) : ChainState :=
  (s.sent (.user signer) (.module .reserve) ⟨denom, (fetchConfig .openContractCost).toInt⟩
    .openCost).sent (.user signer) (.module .contract) ⟨c.rate.denom, c.deposit⟩ (.deposit c.id)

/-- The event of an opening. -/
def openEvent (c : Contract) : EventOpenContract where
  provider := c.provider
  contractId := c.id
  service := serviceString c.service
  client := c.client
  delegate := c.delegate
  type := c.type
  height := c.height
  duration := c.duration
  rate := c.rate
  openCost := fetchConfig .openContractCost
  deposit := c.deposit
  settlementDuration := c.settlementDuration
  authorization := c.authorization
  queriesPerMinute := c.queriesPerMinute

/-- The store after a contract has been opened. -/
def ChainState.opened (ctx : Context) (signer : Bytes) (c : Contract) (s : ChainState) :
    ChainState :=
  let s' := { s.charged signer c with nextContractId := c.id + 1 }
  let s' := s'.list c.settlementPeriodEnd c.id
  let s' := s'.putUserIds c.delegate (s'.userIds (toUpper c.delegate) ++ [c.id])
  { s' with
    contracts := s'.contracts.insert c.id c
    events := s'.events ++ [(ctx.blockHeight, .openContract (openEvent c))] }

/-- A contract that can be opened, and the account that pays for it. -/
structure Opening (cr : Crypto) (ctx : Context) (s : ChainState) (signer : Bytes) (c : Contract) :
    Prop where
  id_eq : c.id = s.getNextContractId
  height_eq : c.height = ctx.blockHeight
  paid_eq : c.paid = 0
  nonce_eq : c.nonce = 0
  settlementHeight_eq : c.settlementHeight = 0
  wf : c.Wf cr
  cost_le : (fetchConfig .openContractCost).toInt ≤ s.balance (.user signer) denom
  deposit_le : c.deposit ≤ (s.sent (.user signer) (.module .reserve)
    ⟨denom, (fetchConfig .openContractCost).toInt⟩ .openCost).balance (.user signer) c.rate.denom

section Opened
variable (s) (ctx) (c) (signer : Bytes)

@[simp] theorem ChainState.charged_contracts :
    (s.charged signer c).contracts = s.contracts := by
  simp [charged]

@[simp] theorem ChainState.charged_userSets : (s.charged signer c).userSets = s.userSets := by
  simp [charged]

@[simp] theorem ChainState.charged_expirationSets :
    (s.charged signer c).expirationSets = s.expirationSets := by
  simp [charged]

theorem ChainState.opened_lookup (k : ℕ) : (s.opened ctx signer c).contracts.lookup k =
    if k = c.id then some c else s.contracts.lookup k := by
  have h : (s.opened ctx signer c).contracts = s.contracts.insert c.id c := by
    simp [opened, list, putUserIds]
  rw [h]
  by_cases hk : k = c.id
  · rw [if_pos hk, hk, AList.lookup_insert]
  · rw [if_neg hk, AList.lookup_insert_ne hk]

theorem ChainState.opened_userIds (key : String) : (s.opened ctx signer c).userIds key =
    if key = toUpper c.delegate then s.userIds key ++ [c.id] else s.userIds key := by
  have hs : ∀ key, (({ s.charged signer c with nextContractId := c.id + 1 } : ChainState).list
      c.settlementPeriodEnd c.id).userIds key = s.userIds key := by
    intro key
    simp [userIds, list]
  change (putUserIds _ _ _).userIds key = _
  rw [userIds_putUserIds, hs, hs]
  by_cases hk : key = toUpper c.delegate
  · rw [if_pos hk, if_pos hk, hk]
  · rw [if_neg hk, if_neg hk]

theorem ChainState.opened_listedAt (t : Int64) : (s.opened ctx signer c).listedAt t =
    if t = c.settlementPeriodEnd then s.listedAt t ++ [c.id] else s.listedAt t := by
  have hs : ∀ t, ({ s.charged signer c with nextContractId := c.id + 1 } : ChainState).listedAt t =
      s.listedAt t := by
    intro t
    simp [listedAt]
  change (ChainState.list _ _ _).listedAt t = _
  rw [listedAt_list, hs, hs]
  by_cases ht : t = c.settlementPeriodEnd
  · rw [if_pos ht, if_pos ht, ht]
  · rw [if_neg ht, if_neg ht]

theorem ChainState.opened_events : (s.opened ctx signer c).events =
    s.events ++ [(ctx.blockHeight, .openContract (openEvent c))] := by
  simp [opened, list, putUserIds, charged]

theorem ChainState.opened_bank : (s.opened ctx signer c).bank = (s.charged signer c).bank := rfl

theorem ChainState.opened_balance (d : String) :
    (s.opened ctx signer c).balance (.module .contract) d =
      s.balance (.module .contract) d + if d = c.rate.denom then c.deposit else 0 := by
  rw [balance, opened_bank, ← balance, charged, sent_balance, sent_balance]
  simp

theorem ChainState.opened_owed (hn : s.contracts.lookup c.id = none) (d : String) :
    (s.opened ctx signer c).owed d = s.owed d + if d = c.rate.denom then c.remaining else 0 := by
  have h : (s.opened ctx signer c).contracts = s.contracts.insert c.id c := by
    simp [opened, list, putUserIds]
  unfold owed
  rw [h, AList.sumOver_insert, AList.valueAt_of_none hn]
  simp [eq_comm]

theorem ChainState.opened_getNextContractId :
    (s.opened ctx signer c).getNextContractId = c.id + 1 := by
  have h : (s.opened ctx signer c).nextContractId = c.id + 1 := rfl
  rw [getNextContractId, h, if_neg (Nat.succ_ne_zero _)]

end Opened

/-- The next id is not in use. -/
theorem Inv.lookup_next (hi : Inv cr ctx s) : s.contracts.lookup s.getNextContractId = none := by
  cases h : s.contracts.lookup s.getNextContractId with
  | none => rfl
  | some c => exact absurd (hi.stored _ c h).lt_next (Nat.lt_irrefl _)

theorem Inv.next_not_mem (hi : Inv cr ctx s) (key : String) :
    s.getNextContractId ∉ s.userIds key := by
  intro h
  obtain ⟨c, hc, -⟩ := hi.owned key _ h
  rw [hi.lookup_next] at hc
  cases hc

/-- **Opening a contract keeps the invariant.** -/
theorem Inv.opened (hi : Inv cr ctx s) {signer : Bytes} (ho : Opening cr ctx s signer c) :
    Inv cr ctx (s.opened ctx signer c) := by
  have hlook := s.opened_lookup ctx c signer
  have hids := s.opened_userIds ctx c signer
  have hnone : s.contracts.lookup c.id = none := by rw [ho.id_eq]; exact hi.lookup_next
  have hw := ho.wf
  refine
    { setHeights := ?_, setUsers := ?_, stored := ?_, indexed := ?_, owned := ?_, nodup := ?_,
      nonneg := ?_, supply := ?_, solvent := ?_, durations := ?_ }
  · have h : ({ s.charged signer c with nextContractId := c.id + 1 } : ChainState).SetHeights := by
      intro t set ht
      exact hi.setHeights t set (by simpa using ht)
    exact h.list _ _
  · have h : (({ s.charged signer c with nextContractId := c.id + 1 } : ChainState).list
        c.settlementPeriodEnd c.id).SetUsers := hi.setUsers.of_eq (by simp [ChainState.list])
    exact h.putUserIds _ _
  · intro k' c' h
    rw [hlook] at h
    rw [ChainState.opened_getNextContractId]
    by_cases hk : k' = c.id
    · rw [if_pos hk] at h
      cases h
      refine ⟨hk.symm, hw, (congrArg Int64.toInt ho.height_eq).le, by omega, ?_⟩
      intro _
      rw [ho.nonce_eq, show (0 : Int64).toInt = 0 from rfl, Int.mul_zero]
      decide
    · rw [if_neg hk] at h
      have hst := hi.stored k' c' h
      have hlt := hst.lt_next
      exact { hst with lt_next := by rw [ho.id_eq]; omega }
  · intro k' c' h h0
    rw [hlook] at h
    rw [hids]
    by_cases hk : k' = c.id
    · rw [if_pos hk] at h
      cases h
      rw [hw.getSpender_eq, if_pos rfl, hk]
      exact List.mem_append_right _ (List.mem_singleton_self _)
    · rw [if_neg hk] at h
      have hmem := hi.indexed k' c' h h0
      by_cases hkey : toUpper c'.getSpender = toUpper c.delegate
      · rw [if_pos hkey]
        exact List.mem_append_left _ hmem
      · rw [if_neg hkey]
        exact hmem
  · intro key k' hk'
    rw [hids] at hk'
    rw [hlook]
    by_cases hk : k' = c.id
    · subst hk
      rw [if_pos rfl]
      by_cases hkey : key = toUpper c.delegate
      · exact ⟨c, rfl, ho.settlementHeight_eq, by rw [hw.getSpender_eq, hkey]⟩
      · rw [if_neg hkey, ho.id_eq] at hk'
        exact absurd hk' (hi.next_not_mem key)
    · rw [if_neg hk]
      apply hi.owned
      by_cases hkey : key = toUpper c.delegate
      · rw [if_pos hkey] at hk'
        rcases List.mem_append.mp hk' with h | h
        · exact h
        · exact absurd (List.mem_singleton.mp h) hk
      · rw [if_neg hkey] at hk'
        exact hk'
  · intro key
    rw [hids]
    by_cases hkey : key = toUpper c.delegate
    · rw [if_pos hkey, ho.id_eq]
      refine List.Nodup.append (hi.nodup key) (List.nodup_singleton _) ?_
      intro x hx hx'
      rw [List.mem_singleton.mp hx'] at hx
      exact hi.next_not_mem key hx
    · rw [if_neg hkey]
      exact hi.nodup key
  · have hcost : 0 ≤ (fetchConfig .openContractCost).toInt := by decide
    have hdep : 0 ≤ c.deposit := hw.paid_nonneg.trans hw.paid_le
    exact ChainState.sent_nonneg _ _ _ _ _ (ChainState.sent_nonneg _ _ _ _ _ hi.nonneg hcost
      ho.cost_le) hdep ho.deposit_le
  · intro d
    rw [ChainState.opened_bank, ChainState.charged, ChainState.sent_supply, ChainState.sent_supply]
    exact hi.supply d
  · intro d
    have hso := hi.solvent d
    have hrem : c.remaining = c.deposit := by
      unfold Contract.remaining
      rw [ho.paid_eq, Int.sub_zero]
    rw [ChainState.opened_owed _ _ _ signer hnone, ChainState.opened_balance, hrem]
    omega
  · intro key p h
    exact hi.durations key p (by simpa [ChainState.opened, ChainState.putUserIds, ChainState.list,
      ChainState.charged] using h)

end Arkeo
