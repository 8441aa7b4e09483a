import Arkeo.Invariant
import Arkeo.MsgServer

/-! # What an accepted message does

For each handler, what its success says about the message and the store, and the
store it leaves, in terms of the changes the invariant is proved for.
-/
namespace Arkeo
open Exec

variable {cr : Crypto} {ctx : Context} {s s' : ChainState} {u : Unit}

theorem Crypto.newPubKey_some {key pk : String} (h : cr.newPubKey key = some pk) :
    pk = key ∧ (key ≠ "" → ∃ addr, cr.getMyAddress key = some addr) := by
  unfold newPubKey at h
  split at h
  · rename_i he
    exact ⟨(Option.some.inj h).symm.trans he.symm, fun hne => absurd he hne⟩
  · obtain ⟨bytes, hb, rfl⟩ := Option.map_eq_some_iff.mp h
    refine ⟨rfl, fun _ => ⟨cr.address bytes, ?_⟩⟩
    rw [getMyAddress, hb, Option.map_some]

@[simp] theorem mustGetSigner_ok {creator : String} {signer : Bytes} :
    mustGetSigner cr creator s = .ok signer s' ↔
      cr.accAddressFromBech32 creator = some signer ∧ s = s' :=
  ofOption_ok

/-! ## Opening a contract -/

/-- What `ValidateBasic` has tested of a message that opens a contract. -/
theorem MsgOpenContract.validateBasic_ok {msg : MsgOpenContract}
    (h : msg.validateBasic cr s = .ok u s') :
    s = s' ∧ 0 < msg.duration.toInt ∧ validateDenom msg.rate.denom = true ∧
      0 < msg.queriesPerMinute.toInt ∧ 0 < msg.rate.amount ∧ 0 ≤ msg.settlementDuration.toInt ∧
      ¬(msg.contractType = .payAsYouGo ∧ msg.authorization = .openAuth) := by
  unfold validateBasic at h
  rw [ofOption_bind_ok] at h
  obtain ⟨_, -, h⟩ := h
  rw [failIf_bind_ok, ofOption_bind_ok] at h
  obtain ⟨-, _, -, h⟩ := h
  obtain ⟨_, _, hs, h⟩ := bind_ok.mp h
  obtain ⟨-, rfl⟩ := mustGetSigner_ok.mp hs
  rw [ofOption_bind_ok] at h
  obtain ⟨_, -, h⟩ := h
  simp only [failIf_bind_ok, failIf_ok] at h
  obtain ⟨-, hdur, hrate, hq, hpos, hset, hauth, rfl⟩ := h
  simp only [decide_eq_false_iff_not, Bool.not_eq_false', Coin.valid, Bool.and_eq_true,
    Bool.and_eq_false_iff, Int64.le_iff_toInt_le, Int64.lt_iff_toInt_lt, Int64.toInt_zero, not_le,
    not_lt] at hdur hrate hq hpos hset hauth
  exact ⟨rfl, hdur, hrate.1, hq, hpos, hset, fun ⟨h1, h2⟩ => by simp [h1, h2] at hauth⟩

/-- The id a service name stands for in the registry, if it is one the handlers
take. -/
def ChainState.serviceId? (s : ChainState) (name : String) : Option ℕ :=
  (s.services.lookup (toLower name)).bind fun svc =>
    if svc.id = 0 ∨ 2147483647 < svc.id then none else some svc.id

theorem resolveServiceEnum_ok {name : String} {r : ℕ × Service} :
    resolveServiceEnum name s = .ok r s' ↔
      (s.serviceId? name = some r.1 ∧ s.services.lookup (toLower name) = some r.2) ∧ s = s' := by
  unfold resolveServiceEnum getService ChainState.serviceId?
  rw [reading_bind, ofOption_bind_ok]
  simp only [failIf_bind_ok, pure_ok, Bool.or_eq_false_iff, decide_eq_false_iff_not,
    Option.bind_eq_some_iff, Option.ite_none_left_eq_some, not_or, Option.some.injEq]
  constructor
  · rintro ⟨svc, hsvc, hid, rfl, rfl⟩
    exact ⟨⟨⟨svc, hsvc, hid, rfl⟩, hsvc⟩, rfl⟩
  · rintro ⟨⟨⟨svc, hsvc, hid, hr⟩, hr'⟩, rfl⟩
    rw [hsvc] at hr'
    obtain rfl := Option.some.inj hr'
    exact ⟨r.2, hsvc, hid, Prod.ext hr rfl, rfl⟩

theorem matchRate_ok {rates : List Coin} {rate : Coin} (h : matchRate rates rate s = .ok u s') :
    s = s' := by
  unfold matchRate rateOf at h
  obtain ⟨_, _, hr, h⟩ := bind_ok.mp h
  rw [ofOption_bind_ok] at hr
  obtain ⟨_, -, hr⟩ := hr
  obtain ⟨-, rfl⟩ := ofOption_ok.mp hr
  rw [failIf_bind_ok, failIf_ok] at h
  exact h.2.2

theorem matchTerms_ok {provider : Provider} {msg : MsgOpenContract}
    (h : matchTerms provider msg s = .ok u s') :
    s = s' ∧ (msg.contractType = .subscription ∨ msg.contractType = .payAsYouGo) ∧
      (msg.contractType = .subscription → msg.rate.amount < 2 ^ 63) := by
  unfold matchTerms at h
  cases ht : msg.contractType with
  | subscription =>
    rw [ht] at h
    obtain ⟨_, _, hm, h⟩ := bind_ok.mp h
    obtain rfl := matchRate_ok hm
    obtain ⟨_, _, hx, h⟩ := bind_ok.mp h
    obtain ⟨⟨-, hlt⟩, -, rfl⟩ := toInt64_ok.mp hx
    obtain ⟨-, rfl⟩ := failIf_ok.mp h
    exact ⟨rfl, .inl rfl, fun _ => hlt⟩
  | payAsYouGo =>
    rw [ht] at h
    obtain ⟨_, _, hm, h⟩ := bind_ok.mp h
    obtain rfl := matchRate_ok hm
    obtain ⟨-, rfl⟩ := failIf_ok.mp h
    exact ⟨rfl, .inr rfl, nofun⟩
  | unknown n =>
    rw [ht] at h
    cases h

/-- The durations a provider can offer are bounded. -/
theorem Inv.getProvider_duration (hi : Inv cr ctx s) {pubKey : PubKey} {service : ℕ} {p : Provider}
    (h : getProvider pubKey service s = .ok p s') :
    s = s' ∧ p.maxContractDuration.toInt ≤ (fetchConfig .maxContractLength).toInt := by
  obtain ⟨rfl, rfl⟩ := reading_ok.mp h
  refine ⟨rfl, ?_⟩
  cases hp : s.providers.lookup (toUpper pubKey, service) with
  | none => show (0 : Int64).toInt ≤ _; decide
  | some p => exact hi.durations _ p hp

/-- No contract of a user's set with this provider, spelled like this, and this
service is open. -/
def ChainState.Vacant (s : ChainState) (ctx : Context) (user provider : PubKey) (service : ℕ) :
    Prop :=
  ∀ k ∈ s.userIds (toUpper user), ∀ c, s.contracts.lookup k = some c → c.provider = provider →
    c.service = service → c.isOpen ctx.blockHeight = false

/-- The scan of a user's set finds an open contract, or there is none. -/
theorem getActiveContractForUser_ok {user provider : PubKey} {service : ℕ} {c : Contract}
    (h : getActiveContractForUser ctx user provider service s = .ok c s') :
    s = s' ∧ (s.Vacant ctx user provider service ∨ c.isOpen ctx.blockHeight = true) := by
  unfold getActiveContractForUser at h
  obtain ⟨_, _, hg, hr⟩ := bind_ok.mp h
  obtain ⟨rfl, rfl⟩ := getUserContractSet_ok.mp hg
  obtain ⟨rfl, rfl⟩ := reading_ok.mp hr
  refine ⟨rfl, ?_⟩
  rw [ChainState.userIds_getD]
  cases hf : ((s.userIds (toUpper user)).map fun id => (s.contracts.lookup id).getD {}).find?
      fun c => c.provider = provider && serviceEquals c.service service &&
        c.isOpen ctx.blockHeight with
  | none =>
    left
    intro k hk c hc hp hs
    have hno := List.find?_eq_none.mp hf c (List.mem_map.mpr ⟨k, hk, by rw [hc]; rfl⟩)
    simpa [hp, hs, serviceEquals_self] using hno
  | some d =>
    right
    have hd := List.find?_some hf
    simp only [Bool.and_eq_true] at hd
    exact hd.2

/-- What the handler has tested of a message that opens a contract. -/
theorem openContractValidate_ok {msg : MsgOpenContract}
    (hi : Inv cr ctx s) (h : openContractValidate cr ctx msg s = .ok u s') :
    s = s' ∧ msg.duration.toInt ≤ (fetchConfig .maxContractLength).toInt ∧
      (msg.contractType = .subscription ∨ msg.contractType = .payAsYouGo) ∧
      (msg.contractType = .subscription → msg.rate.amount < 2 ^ 63) ∧
      ∃ service, s.serviceId? msg.service = some service ∧
        (msg.contractType ≠ .payAsYouGo →
          s.Vacant ctx msg.spender msg.provider service) := by
  unfold openContractValidate at h
  rw [failIf_bind_ok] at h
  obtain ⟨-, h⟩ := h
  obtain ⟨⟨service, svc⟩, _, hr, h⟩ := bind_ok.mp h
  obtain ⟨⟨hsvc, -⟩, rfl⟩ := resolveServiceEnum_ok.mp hr
  rw [ofOption_bind_ok] at h
  obtain ⟨_, hpk, h⟩ := h
  obtain ⟨rfl, -⟩ := Crypto.newPubKey_some hpk
  obtain ⟨p, _, hp, h⟩ := bind_ok.mp h
  obtain ⟨rfl, hmax⟩ := hi.getProvider_duration hp
  simp only [failIf_bind_ok] at h
  obtain ⟨-, -, -, hle, -, h⟩ := h
  obtain ⟨_, _, ht, h⟩ := bind_ok.mp h
  obtain ⟨rfl, hknown, hrate⟩ := matchTerms_ok ht
  obtain ⟨_, _, hs, h⟩ := bind_ok.mp h
  obtain ⟨hspk, rfl⟩ := ofOption_ok.mp hs
  obtain ⟨rfl, -⟩ := Crypto.newPubKey_some hspk
  obtain ⟨active, _, ha, h⟩ := bind_ok.mp h
  obtain ⟨rfl, hactive⟩ := getActiveContractForUser_ok ha
  obtain ⟨hnone, rfl⟩ := failIf_ok.mp h
  simp only [decide_eq_false_iff_not, gt_iff_lt, Int64.lt_iff_toInt_lt, not_lt] at hle
  refine ⟨rfl, hle.trans hmax, hknown, hrate, service, hsvc, ?_⟩
  intro htype
  rcases hactive with hvacant | hopen
  · exact hvacant
  · -- an active contract was found, so the message would have been rejected
    have hempty : active.isEmpty = false := by
      simp only [Contract.isOpen, Bool.and_eq_true, Bool.not_eq_true'] at hopen
      exact hopen.1.1
    simp [hempty, Contract.isExpired, hopen, htype] at hnone

theorem payOpenCost_ok {signer : Bytes} :
    payOpenCost signer (fetchConfig .openContractCost) s = .ok u s' ↔
      (fetchConfig .openContractCost).toInt ≤ s.balance (.user signer) denom ∧
        s.sent (.user signer) (.module .reserve) ⟨denom, (fetchConfig .openContractCost).toInt⟩
          .openCost = s' := by
  unfold payOpenCost
  rw [if_pos (by decide)]
  exact sendFromAccountToModule_ok

/-- A balance is part of the supply, so it fits. -/
theorem Inv.balance_fits (hi : Inv cr ctx s) (a : Account) (d : String) :
    s.balance a d < 2 ^ 256 :=
  lt_of_le_of_lt (hi.nonneg.bal_le_supply a d) (hi.supply d)

/-- A height that has not wrapped around is positive; the test on the expiration
set finds the ones that have. -/
theorem settlementPeriodEnd_fits {c : Contract} (hh : 0 < c.height.toInt)
    (hf : c.height.toInt + (fetchConfig .maxContractLength).toInt < 2 ^ 63)
    (hd : 0 < c.duration.toInt) (hm : c.duration.toInt ≤ (fetchConfig .maxContractLength).toInt)
    (hs : 0 ≤ c.settlementDuration.toInt) (hp : c.type = .payAsYouGo)
    (hend : 0 < c.settlementPeriodEnd) :
    c.height.toInt + c.duration.toInt + c.settlementDuration.toInt < 2 ^ 63 := by
  by_contra hge
  have he : c.expiration.toInt = c.height.toInt + c.duration.toInt :=
    toInt_add_of_fits (by omega) (by omega)
  have hlt := Int64.toInt_lt c.settlementDuration
  rw [Int64.lt_iff_toInt_lt, Int64.toInt_zero, Contract.settlementPeriodEnd,
    if_pos (by simp [Contract.isPayAsYouGo, hp]), Int64.toInt_add, he] at hend
  rw [Int.bmod_def] at hend
  split at hend <;> omega

/-- **Opening a contract.**  The record is new and well formed, and the signer
pays for it. -/
theorem openContract_ok {msg : MsgOpenContract} (hi : Inv cr ctx s)
    (hv : msg.validateBasic cr s = .ok () s) (h : openContract cr ctx msg s = .ok u s') :
    ∃ signer service c, s.serviceId? msg.service = some service ∧
      (msg.contractType ≠ .payAsYouGo → s.Vacant ctx msg.spender msg.provider service) ∧
      c = newContract ctx msg service s.getNextContractId msg.provider msg.client msg.spender ∧
      Opening cr ctx s signer c ∧ s.opened ctx signer c = s' := by
  obtain ⟨-, hdur, hden, hq, hrate, hset, hauth⟩ := MsgOpenContract.validateBasic_ok hv
  obtain ⟨_, _, hval, h⟩ := bind_ok.mp h
  obtain ⟨rfl, hmax, hknown, hfit, service, hsvc, hvacant⟩ := openContractValidate_ok hi hval
  unfold openContractHandle at h
  obtain ⟨signer, _, hs, h⟩ := bind_ok.mp h
  obtain ⟨-, rfl⟩ := mustGetSigner_ok.mp hs
  obtain ⟨_, _, hx, h⟩ := bind_ok.mp h
  obtain ⟨hcost, rfl⟩ := payOpenCost_ok.mp hx
  obtain ⟨_, _, hx, h⟩ := bind_ok.mp h
  obtain ⟨⟨-, hdep⟩, rfl, rfl⟩ := newCoin_ok.mp hx
  rw [reading_bind] at h
  obtain ⟨_, _, hx, h⟩ := bind_ok.mp h
  obtain ⟨hbal, rfl⟩ := sendFromAccountToModule_ok.mp hx
  obtain ⟨⟨service', svc⟩, _, hx, h⟩ := bind_ok.mp h
  obtain ⟨⟨hsvc', -⟩, rfl⟩ := resolveServiceEnum_ok.mp hx
  -- the registry is the same after the transfers
  obtain rfl : service = service' := by
    simp only [ChainState.serviceId?, ChainState.sent_services] at hsvc hsvc'
    exact Option.some.inj (hsvc.symm.trans hsvc')
  simp only [ofOption_bind_ok] at h
  obtain ⟨_, hp, _, hcl, _, hde, h⟩ := h
  obtain ⟨rfl, hpa⟩ := Crypto.newPubKey_some hp
  obtain ⟨rfl, hca⟩ := Crypto.newPubKey_some hcl
  obtain ⟨rfl, -⟩ := Crypto.newPubKey_some hde
  obtain ⟨_, _, hx, h⟩ := bind_ok.mp h
  obtain ⟨rfl, rfl⟩ := getAndIncrementNextContractId_ok.mp hx
  obtain ⟨_, _, hx, h⟩ := bind_ok.mp h
  obtain ⟨rfl, rfl⟩ := getContractExpirationSet_ok.mp hx
  obtain ⟨_, _, hx, h⟩ := bind_ok.mp h
  obtain ⟨hend, rfl⟩ := (appendExpirationSet_ok (fun t set ht =>
    hi.setHeights t set (by simpa using ht))).mp hx
  obtain ⟨_, _, hx, h⟩ := bind_ok.mp h
  obtain ⟨rfl, rfl⟩ := getUserContractSet_ok.mp hx
  obtain ⟨_, _, hx, h⟩ := bind_ok.mp h
  obtain ⟨_, _, hy, h⟩ := bind_ok.mp h
  obtain ⟨⟨hpne, hcne⟩, rfl⟩ := setContract_ok.mp hy
  have hdne : msg.spender ≠ "" := by
    unfold MsgOpenContract.spender
    split
    · exact hcne
    · assumption
  rw [ChainState.userIds_getD] at hx
  obtain rfl := (setUserContractSet_ok (hi.setUsers.of_eq (by simp [ChainState.list])) hdne).mp hx
  rw [emitOpenContractEvent, emit_ok] at h
  subst h
  -- the id was read before the transfers, which do not change it
  have hnext : ∀ a b coin p, (s.sent a b coin p).getNextContractId = s.getNextContractId := by
    intro a b coin p
    simp [ChainState.getNextContractId]
  have hnext' : ∀ a b coin p a' b' coin' p',
      ((s.sent a b coin p).sent a' b' coin' p').getNextContractId = s.getNextContractId := by
    intro a b coin p a' b' coin' p'
    simp [ChainState.getNextContractId]
  simp only [hnext, hnext'] at hend ⊢
  refine ⟨signer, service, _, hsvc, hvacant, rfl, ?_, rfl⟩
  have hh := ctx.pos
  have hhf := ctx.fits
  have hdepfit : msg.deposit < 2 ^ 256 := by
    have h1 := hi.balance_fits (.user signer) msg.rate.denom
    have h2 : (0 : ℤ) ≤ (fetchConfig .openContractCost).toInt := by decide
    rw [ChainState.sent_balance] at hbal
    simp only [reduceCtorEq, false_and, if_false] at hbal
    split at hbal <;> omega
  refine ⟨rfl, rfl, rfl, rfl, rfl, ?_, hcost, hbal⟩
  exact
    { height_pos := hh, height_fits := hhf, duration_pos := hdur, duration_le := hmax
      settlementDuration_nonneg := hset
      end_fits := fun hp => settlementPeriodEnd_fits hh hhf hdur hmax hset hp hend
      known := hknown, rate_pos := hrate, denom_valid := hden, rate_fits := hfit
      nonce_nonneg := le_refl 0, queries_pos := hq
      provider_address := hpa hpne, client_address := hca hcne
      provider_ne := hpne, client_ne := hcne, delegate_ne := hdne
      paid_nonneg := le_refl 0, paid_le := hdep, deposit_fits := hdepfit
      settlementHeight_nonneg := le_refl 0, settled_paid := fun h => absurd rfl h }

/-! ## Closing a contract -/

/-- A record that is read and is not empty is in the store. -/
theorem ChainState.lookup_of_getD {k : ℕ} {c : Contract}
    (h : (s.contracts.lookup k).getD {} = c) (hne : c.isEmpty = false) :
    s.contracts.lookup k = some c := by
  cases hl : s.contracts.lookup k with
  | none =>
    rw [hl] at h
    subst h
    exact absurd hne (by decide)
  | some c' =>
    rw [hl] at h
    exact congrArg some h

/-- The message is signed by the contract's client. -/
def Contract.ClosedBy (cr : Crypto) (c : Contract) (msg : MsgCloseContract) : Prop :=
  ∃ addr, cr.getMyAddress c.client = some addr ∧ cr.accAddressFromBech32 msg.creator = some addr

theorem closeContractValidate_ok {msg : MsgCloseContract}
    (h : closeContractValidate cr ctx msg s = .ok u s') :
    s = s' ∧ ∃ c, s.contracts.lookup msg.contractId = some c ∧ c.isOpen ctx.blockHeight = true ∧
      c.ClosedBy cr msg := by
  unfold closeContractValidate at h
  rw [failIf_bind_ok] at h
  obtain ⟨-, h⟩ := h
  obtain ⟨c, _, hg, h⟩ := bind_ok.mp h
  obtain ⟨hc, rfl⟩ := getContract_ok.mp hg
  rw [failIf_bind_ok, ofOption_bind_ok] at h
  obtain ⟨hne, addr, haddr, h⟩ := h
  obtain ⟨signer, _, hs, h⟩ := bind_ok.mp h
  obtain ⟨hsigner, rfl⟩ := mustGetSigner_ok.mp hs
  simp only [failIf_bind_ok, failIf_ok] at h
  obtain ⟨hsame, hopen, -, rfl⟩ := h
  have hsame : addr = signer := by simpa using hsame
  exact ⟨rfl, c, ChainState.lookup_of_getD hc hne, by simpa [Contract.isExpired] using hopen, addr,
    haddr, by rw [hsame]; exact hsigner⟩

/-- The listing of a pay-as-you-go contract that is being closed. -/
def ChainState.relisted (ctx : Context) (c : Contract) (s : ChainState) : ChainState :=
  if c.isPayAsYouGo then
    (s.unlist c.expiration).list (ctx.blockHeight + c.settlementDuration) c.id
  else s

theorem relist_ok {c : Contract} (hs : s.SetHeights) (h : relist ctx c s = .ok u s') :
    s.relisted ctx c = s' := by
  unfold relist at h
  unfold ChainState.relisted
  split
  · rename_i hp
    rw [if_pos hp] at h
    obtain ⟨_, _, hx, h⟩ := bind_ok.mp h
    obtain rfl := removeContractExpirationSet_ok.mp hx
    obtain ⟨_, _, hx, h⟩ := bind_ok.mp h
    obtain ⟨rfl, rfl⟩ := getContractExpirationSet_ok.mp hx
    obtain ⟨-, rfl⟩ := (appendExpirationSet_ok (hs.unlist c.expiration)).mp h
    rfl
  · rename_i hp
    rw [if_neg hp] at h
    exact (pure_ok.mp h).2

theorem Inv.relisted (hi : Inv cr ctx s) (c : Contract) : Inv cr ctx (s.relisted ctx c) := by
  unfold ChainState.relisted
  split
  · exact (hi.unlist _).list _ _
  · exact hi

@[simp] theorem ChainState.relisted_contracts (c : Contract) :
    (s.relisted ctx c).contracts = s.contracts := by
  unfold relisted
  split <;> rfl

theorem ChainState.relisted_lookup (ctx : Context) {c : Contract}
    (hc : s.contracts.lookup c.id = some c) :
    (s.relisted ctx c).contracts.lookup c.id = some c := by
  rw [relisted_contracts]
  exact hc

/-- Raising the nonce to zero does nothing. -/
theorem Contract.Wf.raiseNonce_zero {c : Contract} (hw : c.Wf cr) : c.raiseNonce 0 = c := by
  have hn := hw.nonce_nonneg
  unfold raiseNonce
  rw [if_neg]
  rw [gt_iff_lt, Int64.lt_iff_toInt_lt, Int64.toInt_zero]
  omega

/-- **A settlement of a stored contract.**  Under the invariant the funds are
there, so it succeeds exactly when the products fit and, for a final one, the
contract is not settled yet. -/
theorem Inv.settleContract_ok (hi : Inv cr ctx s) {c c' : Contract}
    (hc : s.contracts.lookup c.id = some c) {nonce : Int64} {isFinal : Bool} :
    settleContract cr ctx c nonce isFinal s = .ok c' s' ↔
      ((c.raiseNonce nonce).DueFits ctx ∧ (isFinal = true → c.settlementHeight = 0)) ∧
        (c.raiseNonce nonce).settled ctx isFinal = c' ∧
          s.settle cr ctx (c.raiseNonce nonce) isFinal = s' := by
  have hst := hi.stored _ c hc
  have hw := Inv.wf_raiseNonce hst.wf nonce
  have hdue : 0 ≤ (c.raiseNonce nonce).due ctx := hw.due_nonneg hst.height_le
  have hb := hi.payout_le_balance hc nonce isFinal
  have hmem : c.id ∈ s.userIds (toUpper c.getSpender) ↔ c.settlementHeight = 0 := by
    constructor
    · intro h
      by_contra hne
      exact hi.not_mem_userIds hc hne _ h
    · exact hi.indexed _ c hc
  rw [settleContract, settleDebt_ok hw hdue hi.nonneg hi.setUsers, Contract.raiseNonce_remaining,
    Contract.raiseNonce_rate, Contract.raiseNonce_id, Contract.raiseNonce_getSpender, hmem]
  constructor
  · rintro ⟨⟨hf, -, hs⟩, h⟩
    exact ⟨⟨hf, hs⟩, h⟩
  · rintro ⟨⟨hf, hs⟩, h⟩
    exact ⟨⟨hf, hb, hs⟩, h⟩

/-- The event of an accepted close. -/
def closeEvent (c : Contract) : Event :=
  .closeContract c.id c.provider (serviceString c.service) c.client c.delegate

/-- **Closing a contract.**  The contract is open; it is listed anew if it is
pay-as-you-go, and settled, finally if it is a subscription. -/
theorem closeContract_ok {msg : MsgCloseContract} (hi : Inv cr ctx s)
    (h : closeContract cr ctx msg s = .ok u s') :
    ∃ c t, s.contracts.lookup msg.contractId = some c ∧ c.id = msg.contractId ∧
      c.isOpen ctx.blockHeight = true ∧ c.ClosedBy cr msg ∧
      (c.isSubscription = true → c.settlementHeight = 0) ∧ c.DueFits ctx ∧
      t = (s.relisted ctx c).settle cr ctx c c.isSubscription ∧
      s' = { t with events := t.events ++ [(ctx.blockHeight, closeEvent c)] } := by
  obtain ⟨_, _, hv, h⟩ := bind_ok.mp h
  obtain ⟨rfl, c, hc, hopen, hby⟩ := closeContractValidate_ok hv
  have hst := hi.stored _ c hc
  have hzero := hst.wf.raiseNonce_zero
  unfold closeContractHandle at h
  obtain ⟨_, _, hg, h⟩ := bind_ok.mp h
  obtain ⟨hx, rfl⟩ := getContract_ok.mp hg
  rw [hc, Option.getD_some] at hx
  subst hx
  obtain ⟨_, _, hx, h⟩ := bind_ok.mp h
  obtain rfl := relist_ok hi.setHeights hx
  obtain ⟨_, _, hx, h⟩ := bind_ok.mp h
  have hc' : (s.relisted ctx c).contracts.lookup c.id = some c := by
    rw [ChainState.relisted_contracts, hst.id_eq]
    exact hc
  obtain ⟨⟨hf, hs⟩, -, rfl⟩ := ((hi.relisted c).settleContract_ok hc').mp hx
  rw [emitCloseContractEvent, emit_ok] at h
  rw [hzero] at hf h
  exact ⟨c, _, hc, hst.id_eq, hopen, hby, hs, hf, rfl, h.symm⟩

/-! ## Claiming income -/

theorem isSettled_default {h : Int64} (hpos : 0 < h.toInt) : ({} : Contract).isSettled h = true := by
  have hle : (0 : Int64) ≤ h := by
    rw [Int64.le_iff_toInt_le, Int64.toInt_zero]
    omega
  simpa [Contract.isSettled, Contract.isOpen, Contract.isEmpty, Contract.settlementPeriodEnd,
    Contract.isPayAsYouGo, Contract.expiration] using hle

/-- The signature test: what has to be true of the message and the contract. -/
theorem checkClaimSignature_ok {c : Contract} {msg : MsgClaimContractIncome} :
    checkClaimSignature cr ctx c msg s = .ok u s' ↔
      ((c.isSubscription && c.isOpenAuthorization) = true ∨
        ∃ pk, cr.getPubKeyFromBech32 c.getSpender = some pk ∧
          verifyClaim cr pk msg.contractId msg.nonce ctx.chainID msg.signature = true) ∧
      s = s' := by
  unfold checkClaimSignature
  by_cases ho : (c.isSubscription && c.isOpenAuthorization) = true
  · rw [if_pos ho, pure_ok]
    simp [ho]
  · rw [if_neg ho, ofOption_bind_ok]
    simp only [failIf_ok, Bool.not_eq_false', ho, Bool.false_eq_true, false_or]
    constructor
    · rintro ⟨pk, hpk, hv, rfl⟩
      exact ⟨⟨pk, hpk, hv⟩, rfl⟩
    · rintro ⟨⟨pk, hpk, hv⟩, rfl⟩
      exact ⟨pk, hpk, hv, rfl⟩

/-- What an accepted claim has passed, in any store. -/
theorem claimContractIncome_checks {msg : MsgClaimContractIncome}
    (h : handlerClaimContractIncome cr ctx msg s = .ok u s') :
    ∃ c, s.contracts.lookup msg.contractId = some c ∧ c.nonce < msg.nonce ∧
      c.isSettled ctx.blockHeight = false ∧
      ((c.isSubscription && c.isOpenAuthorization) = true ∨
        ∃ pk, cr.getPubKeyFromBech32 c.getSpender = some pk ∧
          verifyClaim cr pk msg.contractId msg.nonce ctx.chainID msg.signature = true) ∧
      ∃ debt, settleContract cr ctx c msg.nonce false s = .ok debt s' := by
  unfold handlerClaimContractIncome at h
  rw [failIf_bind_ok] at h
  obtain ⟨-, h⟩ := h
  obtain ⟨c, _, hg, h⟩ := bind_ok.mp h
  obtain ⟨hc, rfl⟩ := getContract_ok.mp hg
  simp only [failIf_bind_ok] at h
  obtain ⟨hnonce, hset, h⟩ := h
  have hlook : s.contracts.lookup msg.contractId = some c := by
    cases hl : s.contracts.lookup msg.contractId with
    | none =>
      -- a contract that is not stored reads as settled
      rw [hl] at hc
      subst hc
      rw [show (none.getD {} : Contract) = {} from rfl, isSettled_default ctx.pos] at hset
      cases hset
    | some c' =>
      rw [hl] at hc
      exact congrArg some hc
  obtain ⟨_, _, hx, h⟩ := bind_ok.mp h
  obtain ⟨hsig, rfl⟩ := checkClaimSignature_ok.mp hx
  obtain ⟨debt, _, hx, h⟩ := bind_ok.mp h
  obtain ⟨-, rfl⟩ := pure_ok.mp h
  refine ⟨c, hlook, ?_, hset, hsig, debt, hx⟩
  simpa [Int64.not_le] using hnonce

/-- **Claiming income.**  The contract is stored, its claims are still taken, and
the nonce is larger than any before; it is settled at that nonce. -/
theorem claimContractIncome_ok {msg : MsgClaimContractIncome} (hi : Inv cr ctx s)
    (h : handlerClaimContractIncome cr ctx msg s = .ok u s') :
    ∃ c, s.contracts.lookup msg.contractId = some c ∧ c.id = msg.contractId ∧
      c.nonce < msg.nonce ∧ c.isSettled ctx.blockHeight = false ∧
      (c.raiseNonce msg.nonce).DueFits ctx ∧
      s' = s.settle cr ctx (c.raiseNonce msg.nonce) false := by
  obtain ⟨c, hlook, hnonce, hset, -, debt, hx⟩ := claimContractIncome_checks h
  have hst := hi.stored _ c hlook
  have hc' : s.contracts.lookup c.id = some c := by
    rw [hst.id_eq]
    exact hlook
  obtain ⟨⟨hf, -⟩, -, rfl⟩ := (hi.settleContract_ok hc').mp hx
  exact ⟨c, hlook, hst.id_eq, hnonce, hset, hf, rfl⟩

/-- A claim that passes the tests is accepted. -/
theorem claimContractIncome_accepts {msg : MsgClaimContractIncome} (hi : Inv cr ctx s) {c : Contract}
    (hc : s.contracts.lookup msg.contractId = some c) (hn : c.nonce < msg.nonce)
    (hset : c.isSettled ctx.blockHeight = false) (hf : (c.raiseNonce msg.nonce).DueFits ctx)
    (hsig : ∃ pk, cr.getPubKeyFromBech32 c.getSpender = some pk ∧
      verifyClaim cr pk msg.contractId msg.nonce ctx.chainID msg.signature = true) :
    handlerClaimContractIncome cr ctx msg s =
      .ok () (s.settle cr ctx (c.raiseNonce msg.nonce) false) := by
  have hc' : s.contracts.lookup c.id = some c := by
    rw [(hi.stored _ c hc).id_eq]
    exact hc
  have hge : ¬c.nonce ≥ msg.nonce := Int64.not_le.mpr hn
  refine failIf_bind_ok.mpr ⟨rfl, bind_ok.mpr ⟨c, s, getContract_ok.mpr ⟨by rw [hc]; rfl, rfl⟩, ?_⟩⟩
  refine failIf_bind_ok.mpr ⟨decide_eq_false hge, failIf_bind_ok.mpr ⟨hset, ?_⟩⟩
  refine bind_ok.mpr ⟨(), s, checkClaimSignature_ok.mpr ⟨.inr hsig, rfl⟩, ?_⟩
  exact bind_ok.mpr ⟨_, _, (hi.settleContract_ok hc').mpr ⟨⟨hf, nofun⟩, rfl, rfl⟩, rfl⟩

/-! ## Bonding and provider settings -/

/-- An event of a provider or a service, which says nothing of a contract. -/
def Event.isQuiet : Event → Bool
  | .openContract _ | .closeContract .. | .settleContract _ => false
  | _ => true

/-- A change that touches no contract: the index stores and the contract module's
account are as they were, and no posting or settlement of a contract is added. -/
structure Quiet (s s' : ChainState) : Prop where
  contracts : s'.contracts = s.contracts
  expirationSets : s'.expirationSets = s.expirationSets
  userSets : s'.userSets = s.userSets
  nextContractId : s'.nextContractId = s.nextContractId
  nonneg : s.bank.Nonneg → s'.bank.Nonneg
  supply : ∀ d, s'.bank.supply d = s.bank.supply d
  balance : ∀ d, s'.balance (.module .contract) d = s.balance (.module .contract) d
  journal : ∃ ps, s'.journal = s.journal ++ ps ∧ ∀ p ∈ ps, p.purpose = .bond
  events : ∃ es, s'.events = s.events ++ es ∧ ∀ e ∈ es, e.2.isQuiet = true

namespace Quiet

theorem trans {t : ChainState} (h : Quiet s t) (h' : Quiet t s') : Quiet s s' := by
  obtain ⟨ps, hps, hp⟩ := h.journal
  obtain ⟨ps', hps', hp'⟩ := h'.journal
  obtain ⟨es, hes, he⟩ := h.events
  obtain ⟨es', hes', he'⟩ := h'.events
  refine
    { contracts := h'.contracts.trans h.contracts
      expirationSets := h'.expirationSets.trans h.expirationSets
      userSets := h'.userSets.trans h.userSets
      nextContractId := h'.nextContractId.trans h.nextContractId
      nonneg := fun hn => h'.nonneg (h.nonneg hn)
      supply := fun d => (h'.supply d).trans (h.supply d)
      balance := fun d => (h'.balance d).trans (h.balance d)
      journal := ⟨ps ++ ps', by rw [hps', hps, List.append_assoc], ?_⟩
      events := ⟨es ++ es', by rw [hes', hes, List.append_assoc], ?_⟩ }
  · intro p hmem
    rcases List.mem_append.mp hmem with hmem | hmem
    · exact hp p hmem
    · exact hp' p hmem
  · intro e hmem
    rcases List.mem_append.mp hmem with hmem | hmem
    · exact he e hmem
    · exact he' e hmem

theorem setProviders (s : ChainState) (ps : AList fun _ : String × ℕ => Provider) :
    Quiet s { s with providers := ps } where
  contracts := rfl
  expirationSets := rfl
  userSets := rfl
  nextContractId := rfl
  nonneg := id
  supply _ := rfl
  balance _ := rfl
  journal := ⟨[], (List.append_nil _).symm, nofun⟩
  events := ⟨[], (List.append_nil _).symm, nofun⟩

theorem registry (s : ChainState) (services : AList fun _ : String => Service)
    (ids : AList fun _ : ℕ => String) (e : Int64 × Event) (he : e.2.isQuiet = true) :
    Quiet s { s with services := services, serviceIds := ids, events := s.events ++ [e] } where
  contracts := rfl
  expirationSets := rfl
  userSets := rfl
  nextContractId := rfl
  nonneg := id
  supply _ := rfl
  balance _ := rfl
  journal := ⟨[], (List.append_nil _).symm, nofun⟩
  events := ⟨[e], rfl, fun e' h => by rw [List.mem_singleton.mp h]; exact he⟩

theorem emit (s : ChainState) (e : Int64 × Event) (he : e.2.isQuiet = true) :
    Quiet s { s with events := s.events ++ [e] } where
  contracts := rfl
  expirationSets := rfl
  userSets := rfl
  nextContractId := rfl
  nonneg := id
  supply _ := rfl
  balance _ := rfl
  journal := ⟨[], (List.append_nil _).symm, nofun⟩
  events := ⟨[e], rfl, fun e' h => by rw [List.mem_singleton.mp h]; exact he⟩

theorem sent {src dst : Account} {coin : Coin} (hs : src ≠ .module .contract)
    (hd : dst ≠ .module .contract) (h0 : 0 ≤ coin.amount)
    (hle : coin.amount ≤ s.balance src coin.denom) : Quiet s (s.sent src dst coin .bond) where
  contracts := s.sent_contracts ..
  expirationSets := s.sent_expirationSets ..
  userSets := s.sent_userSets ..
  nextContractId := s.sent_nextContractId ..
  nonneg hn := s.sent_nonneg _ _ _ _ hn h0 hle
  supply := s.sent_supply _ _ _ _
  balance d := by
    rw [ChainState.sent_balance, if_neg (fun h => hs h.1.symm), if_neg (fun h => hd h.1.symm)]
    omega
  journal := by
    refine ⟨_, s.sent_journal .., ?_⟩
    intro p hp
    split at hp
    · cases hp
    · rw [List.mem_singleton.mp hp]
  events := ⟨[], by rw [ChainState.sent_events, List.append_nil], nofun⟩

end Quiet

/-- Where a provider record is written, its durations are bounded. -/
def ChainState.Durations (s : ChainState) : Prop :=
  ∀ key p, s.providers.lookup key = some p →
    p.maxContractDuration.toInt ≤ (fetchConfig .maxContractLength).toInt

theorem ChainState.Durations.erase {s : ChainState} (h : s.Durations) (key : String × ℕ) :
    ({ s with providers := s.providers.erase key } : ChainState).Durations := by
  intro key' p hp
  by_cases hk : key' = key
  · subst hk
    rw [AList.lookup_erase] at hp
    cases hp
  · rw [AList.lookup_erase_ne hk] at hp
    exact h key' p hp

theorem ChainState.Durations.insert {s : ChainState} (h : s.Durations) (key : String × ℕ)
    {p : Provider}
    (hp : p.maxContractDuration.toInt ≤ (fetchConfig .maxContractLength).toInt) :
    ({ s with providers := s.providers.insert key p } : ChainState).Durations := by
  intro key' p' hp'
  by_cases hk : key' = key
  · subst hk
    rw [AList.lookup_insert] at hp'
    cases hp'
    exact hp
  · rw [AList.lookup_insert_ne hk] at hp'
    exact h key' p' hp'

theorem setProvider_ok {p : Provider} (hd : s.Durations)
    (hp : p.maxContractDuration.toInt ≤ (fetchConfig .maxContractLength).toInt)
    (h : setProvider p s = .ok u s') : Quiet s s' ∧ s'.Durations := by
  unfold setProvider at h
  rw [failIf_bind_ok] at h
  obtain ⟨-, h⟩ := h
  obtain rfl := writing_ok.mp h
  refine ⟨Quiet.setProviders s _, ?_⟩
  split
  · exact hd.erase _
  · exact hd.insert _ hp

theorem moveBond_ok {provider : Provider} {addr : Bytes} {bond : ℤ} {coin : Coin}
    (h0 : 0 ≤ coin.amount) (h : moveBond provider addr bond coin s = .ok u s') :
    Quiet s s' ∧ s'.providers = s.providers := by
  unfold moveBond at h
  split at h
  · obtain ⟨hle, rfl⟩ := sendFromAccountToModule_ok.mp h
    exact ⟨Quiet.sent (by simp) (by simp) h0 hle, s.sent_providers ..⟩
  · split at h
    · rw [failIf_bind_ok] at h
      obtain ⟨hle, rfl⟩ := sendFromModuleToAccount_ok.mp h.2
      exact ⟨Quiet.sent (by simp) (by simp) h0 hle, s.sent_providers ..⟩
    · cases h

theorem writeBond_ok {p : Provider} {bond : ℤ} (hd : s.Durations)
    (hp : p.maxContractDuration.toInt ≤ (fetchConfig .maxContractLength).toInt)
    (h : writeBond ctx p bond s = .ok u s') : Quiet s s' ∧ s'.Durations := by
  unfold writeBond at h
  split at h
  · obtain rfl := writing_ok.mp h
    exact ⟨Quiet.setProviders s _, hd.erase _⟩
  · exact setProvider_ok hd (by exact hp) h

theorem bondProvider_ok {msg : MsgBondProvider} (hi : Inv cr ctx s)
    (h : bondProvider cr ctx msg s = .ok u s') : Quiet s s' ∧ s'.Durations := by
  obtain ⟨_, _, hv, h⟩ := bind_ok.mp h
  obtain ⟨-, rfl⟩ := failIf_ok.mp hv
  unfold bondProviderHandle at h
  obtain ⟨⟨service, svc⟩, _, hx, h⟩ := bind_ok.mp h
  obtain ⟨⟨hsvc, -⟩, rfl⟩ := resolveServiceEnum_ok.mp hx
  rw [ofOption_bind_ok] at h
  obtain ⟨pk, -, h⟩ := h
  obtain ⟨p, _, hp, h⟩ := bind_ok.mp h
  obtain ⟨rfl, hmax⟩ := hi.getProvider_duration hp
  rw [ofOption_bind_ok] at h
  obtain ⟨addr, -, h⟩ := h
  obtain ⟨amount, _, hx, h⟩ := bind_ok.mp h
  obtain ⟨⟨-, hlt⟩, rfl, rfl⟩ := toInt64_ok.mp hx
  have h0 : 0 ≤ (Int64.ofInt msg.bond.natAbs).toInt := by
    rw [Int64.toInt_ofInt_of_le (by omega) (by omega)]
    omega
  obtain ⟨_, s₁, hx, h⟩ := bind_ok.mp h
  obtain ⟨hq, hps⟩ := moveBond_ok h0 hx
  obtain ⟨bond, _, hx, h⟩ := bind_ok.mp h
  obtain ⟨-, -, rfl⟩ := checked_ok.mp hx
  obtain ⟨_, s₂, hx, h⟩ := bind_ok.mp h
  have hd : s₁.Durations := by
    intro key p hp
    rw [hps] at hp
    exact hi.durations key p hp
  obtain ⟨hq', hd'⟩ := writeBond_ok hd hmax hx
  unfold emitBondProviderEvent at h
  rw [ofOption_bind_ok] at h
  obtain ⟨_, -, h⟩ := h
  obtain rfl := emit_ok.mp h
  exact ⟨hq.trans (hq'.trans (Quiet.emit s₂ _ rfl)), hd'⟩

theorem modProvider_ok {msg : MsgModProvider} (hi : Inv cr ctx s)
    (h : modProvider cr ctx msg s = .ok u s') : Quiet s s' ∧ s'.Durations := by
  obtain ⟨_, _, hv, h⟩ := bind_ok.mp h
  unfold modProviderValidate at hv
  simp only [failIf_bind_ok] at hv
  obtain ⟨-, hmax, -, hv⟩ := hv
  obtain ⟨⟨service, svc⟩, _, hx, hv⟩ := bind_ok.mp hv
  obtain ⟨⟨hsvc, -⟩, rfl⟩ := resolveServiceEnum_ok.mp hx
  obtain ⟨p, _, hp, hv⟩ := bind_ok.mp hv
  obtain ⟨rfl, -⟩ := hi.getProvider_duration hp
  obtain ⟨-, rfl⟩ := failIf_ok.mp hv
  unfold modProviderHandle at h
  obtain ⟨⟨service', svc'⟩, _, hx, h⟩ := bind_ok.mp h
  obtain ⟨⟨hsvc, -⟩, rfl⟩ := resolveServiceEnum_ok.mp hx
  obtain ⟨p', _, hp', h⟩ := bind_ok.mp h
  obtain ⟨rfl, -⟩ := hi.getProvider_duration hp'
  obtain ⟨_, s₁, hx, h⟩ := bind_ok.mp h
  have hmax' : msg.maxContractDuration.toInt ≤ (fetchConfig .maxContractLength).toInt := by
    rw [Bool.and_eq_false_iff] at hmax
    rcases hmax with hmax | hmax
    · exact absurd hmax (by decide)
    · rw [decide_eq_false_iff_not, gt_iff_lt, Int64.lt_iff_toInt_lt] at hmax
      omega
  obtain ⟨hq, hd⟩ := setProvider_ok hi.durations (by exact hmax') hx
  obtain ⟨_, _, hx, h⟩ := bind_ok.mp h
  obtain ⟨-, rfl⟩ := mustGetSigner_ok.mp hx
  rw [emitModProviderEvent, emit_ok] at h
  subst h
  exact ⟨hq.trans (Quiet.emit s₁ _ rfl), hd⟩

/-! ## The service registry -/

@[simp] theorem getService_ok {name : String} {o : Option Service} :
    getService name s = .ok o s' ↔ s.services.lookup (toLower name) = o ∧ s = s' :=
  reading_ok

@[simp] theorem getServiceByID_ok {id : ℕ} {o : Option Service} :
    getServiceByID id s = .ok o s' ↔
      ((s.serviceIds.lookup id).bind fun name => s.services.lookup (toLower name)) = o ∧ s = s' :=
  reading_ok

theorem validateService_ok {creator name : String} {id : ℕ} :
    validateService cr creator id name s = .ok u s' ↔
      ((cr.accAddressFromBech32 creator).isSome ∧ id ≠ 0 ∧ isBlank name = false) ∧ s = s' := by
  unfold validateService
  simp only [ofOption_bind_ok, failIf_bind_ok, failIf_ok, decide_eq_false_iff_not,
    Option.isSome_iff_exists]
  constructor
  · rintro ⟨a, ha, hid, hn, rfl⟩
    exact ⟨⟨⟨a, ha⟩, hid, hn⟩, rfl⟩
  · rintro ⟨⟨⟨a, ha⟩, hid, hn⟩, rfl⟩
    exact ⟨a, ha, hid, hn, rfl⟩

theorem MsgRemoveService.validateBasic_ok {msg : MsgRemoveService} :
    msg.validateBasic cr s = .ok u s' ↔
      ((cr.accAddressFromBech32 msg.creator).isSome ∧ isBlank msg.name = false) ∧ s = s' := by
  unfold validateBasic
  simp only [ofOption_bind_ok, failIf_ok, Option.isSome_iff_exists]
  constructor
  · rintro ⟨a, ha, hn, rfl⟩
    exact ⟨⟨⟨a, ha⟩, hn⟩, rfl⟩
  · rintro ⟨⟨⟨a, ha⟩, hn⟩, rfl⟩
    exact ⟨a, ha, hn, rfl⟩

/-- The store after a record of the registry is written. -/
def ChainState.withService (s : ChainState) (ctx : Context) (svc : Service) (e : Service → Event) :
    ChainState :=
  { s with
    services := s.services.insert (toLower svc.name) svc
    serviceIds := s.serviceIds.insert svc.id (toLower svc.name)
    events := s.events ++ [(ctx.blockHeight, e svc)] }

/-- The store after a record of the registry is deleted. -/
def ChainState.withoutService (s : ChainState) (ctx : Context) (svc : Service) (name : String) :
    ChainState :=
  { s with
    services := s.services.erase (toLower name)
    serviceIds := s.serviceIds.erase svc.id
    events := s.events ++ [(ctx.blockHeight, .removeService name)] }

theorem setService_emit_ok {svc : Service} {e : Service → Event}
    (h : (do setService svc; emit ctx (e svc)) s = EStateM.Result.ok u s') :
    s' = s.withService ctx svc e := by
  unfold setService at h
  simp only [bind_assoc, failIf_bind_ok] at h
  obtain ⟨-, -, h⟩ := h
  obtain ⟨_, _, hw, h⟩ := bind_ok.mp h
  obtain rfl := writing_ok.mp hw
  obtain rfl := emit_ok.mp h
  rfl

/-- An accepted registration adds a record under a new name and a new id. -/
theorem registerService_ok {msg : MsgRegisterService} (h : registerService cr ctx msg s = .ok u s') :
    s.services.lookup (toLower msg.name) = none ∧
      getServiceByID msg.id s = .ok none s ∧
      s' = s.withService ctx msg.record .registerService := by
  obtain ⟨_, _, hv, h⟩ := bind_ok.mp h
  unfold registerServiceValidate at hv
  rw [failIf_bind_ok] at hv
  obtain ⟨_, _, hx, hv⟩ := bind_ok.mp hv.2
  obtain ⟨rfl, rfl⟩ := getService_ok.mp hx
  rw [failIf_bind_ok] at hv
  obtain ⟨hnew, hv⟩ := hv
  obtain ⟨found, _, hx, hv⟩ := bind_ok.mp hv
  obtain ⟨hfound, rfl⟩ := getServiceByID_ok.mp hx
  rw [failIf_bind_ok] at hv
  obtain ⟨hfree, hv⟩ := hv
  obtain ⟨-, rfl⟩ := validateService_ok.mp hv
  have hnone : found = none := Option.isNone_iff_eq_none.mp (by simpa using hfree)
  exact ⟨Option.isNone_iff_eq_none.mp (by simpa using hnew), hnone ▸ hx, setService_emit_ok h⟩

/-- An accepted update rewrites a record under its name and id. -/
theorem updateService_ok {msg : MsgUpdateService} (h : updateService cr ctx msg s = .ok u s') :
    ∃ svc, s.services.lookup (toLower msg.name) = some svc ∧ svc.id = msg.id ∧
      s' = s.withService ctx msg.record .updateService := by
  obtain ⟨_, _, hv, h⟩ := bind_ok.mp h
  unfold updateServiceValidate at hv
  rw [failIf_bind_ok] at hv
  obtain ⟨_, _, hx, hv⟩ := bind_ok.mp hv.2
  obtain ⟨rfl, rfl⟩ := getService_ok.mp hx
  rw [ofOption_bind_ok] at hv
  obtain ⟨svc, hsvc, hv⟩ := hv
  rw [failIf_bind_ok] at hv
  obtain ⟨hid, hv⟩ := hv
  obtain ⟨-, rfl⟩ := validateService_ok.mp hv
  exact ⟨svc, hsvc, by simpa using hid, setService_emit_ok h⟩

/-- An accepted removal deletes a record, whoever is bonded to it. -/
theorem removeService_ok {msg : MsgRemoveService} (h : removeService cr ctx msg s = .ok u s') :
    ∃ svc, s.services.lookup (toLower msg.name) = some svc ∧
      s' = s.withoutService ctx svc (toLower msg.name) := by
  obtain ⟨_, _, hv, h⟩ := bind_ok.mp h
  unfold removeServiceValidate at hv
  rw [failIf_bind_ok] at hv
  obtain ⟨_, _, hx, hv⟩ := bind_ok.mp hv.2
  obtain ⟨rfl, rfl⟩ := getService_ok.mp hx
  rw [ofOption_bind_ok] at hv
  obtain ⟨svc, hsvc, hv⟩ := hv
  obtain ⟨-, rfl⟩ := MsgRemoveService.validateBasic_ok.mp hv
  obtain ⟨_, _, hw, h⟩ := bind_ok.mp h
  obtain rfl := writing_ok.mp hw
  obtain rfl := emit_ok.mp h
  refine ⟨svc, hsvc, ?_⟩
  have hlookup : s.services.lookup (toLower (toLower msg.name)) = some svc := by
    rw [toLower_toLower, hsvc]
  simp only [hlookup]
  rfl

theorem Quiet.withService (s : ChainState) (ctx : Context) (svc : Service) {e : Service → Event}
    (he : (e svc).isQuiet = true) : Quiet s (s.withService ctx svc e) :=
  Quiet.registry s _ _ _ he

theorem Quiet.withoutService (s : ChainState) (ctx : Context) (svc : Service) (name : String) :
    Quiet s (s.withoutService ctx svc name) :=
  Quiet.registry s _ _ _ rfl

theorem Quiet.inv (hq : Quiet s s') (hd : s'.Durations) (hi : Inv cr ctx s) : Inv cr ctx s' :=
  hi.quiet hq.contracts (fun t set h => hi.setHeights t set (hq.expirationSets ▸ h)) hq.userSets
    hq.nextContractId (hq.nonneg hi.nonneg) hq.supply (fun d => (hq.balance d).ge) hd

end Arkeo
