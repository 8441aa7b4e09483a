import Arkeo.Sentinel.Spec
import Arkeo.Reachable

/-! # A settings request is a payment

A client signs `<contract>:<timestamp>:` to change the settings of a contract, and
`<contract>:<nonce>:` to pay for a query.  Since `parseContractAuth` leaves the chain
id empty, the two are the same bytes.  Whatever signature `ContractAuth.validate`
accepts, the chain accepts as an income claim whose nonce is the timestamp, and the
paid tier accepts as payment for a query.
-/
namespace Arkeo.Sentinel
open Exec Text

variable {cr : Crypto} {ctx : Context}

/-- What is known of the key codec and the signature scheme: the empty string is no
key, and signatures have 64 bytes. -/
structure Lawful (cr : Crypto) : Prop where
  empty : cr.getPubKeyFromBech32 "" = none
  sized : ∀ pk m sig, cr.verifySignature pk m sig = true → sig.length = 64

/-- Ideal signatures and hashes: a signature verifies under one key for one message,
and different texts have different digests. -/
structure Ideal (cr : Crypto) : Prop where
  unique : ∀ pk pk' m m' sig, cr.verifySignature pk m sig = true →
    cr.verifySignature pk' m' sig = true → pk = pk' ∧ m = m'
  sha256 : Function.Injective cr.sha256

/-! ## The two messages are one -/

theorem parseContractAuth_chainId {raw : String} {auth : ContractAuth}
    (h : parseContractAuth raw = some auth) : auth.chainId = "" := by
  unfold parseContractAuth at h
  split at h
  · obtain ⟨_, -, h⟩ := Option.bind_eq_some_iff.mp h
    cases h
    rfl
  · obtain ⟨_, -, h⟩ := Option.bind_eq_some_iff.mp h
    obtain ⟨_, -, h⟩ := Option.bind_eq_some_iff.mp h
    cases h
    rfl
  · obtain ⟨_, -, h⟩ := Option.bind_eq_some_iff.mp h
    obtain ⟨_, -, h⟩ := Option.bind_eq_some_iff.mp h
    obtain ⟨_, -, h⟩ := Option.bind_eq_some_iff.mp h
    cases h
    rfl
  · cases h
    rfl

theorem ContractAuth.validate_ok {auth : ContractAuth} {last : Int64} {client : PubKey} {u : Unit}
    (h : auth.validate cr last client = .ok u) : ∃ pk,
      cr.getPubKeyFromBech32 client = some pk ∧
      cr.verifySignature pk (getBytesToSign auth.contractId auth.timestamp auth.chainId)
        auth.signature = true := by
  unfold validate at h
  split at h
  · cases h
  split at h
  · cases h
  split at h
  · cases h
  · rename_i pk hpk
    simp only at h
    split at h
    · rename_i hv
      exact ⟨pk, hpk, hv⟩
    · cases h

/-- The income claim with the timestamp as its nonce is signed, for every chain. -/
theorem verifyClaim_of_message (hl : Lawful cr) {pk sig : Bytes} {id : ℕ} {n : Int64}
    (h : cr.verifySignature pk (getBytesToSign id n "") sig = true) (chainID : String) :
    verifyClaim cr pk id n chainID sig = true := by
  unfold verifyClaim verifyAny
  simp [hl.sized pk _ sig h, h]

theorem verifyRequest_of_message {pk sig : Bytes} {id : ℕ} {n : Int64}
    (h : cr.verifySignature pk (getBytesToSign id n "") sig = true) :
    verifyRequest cr pk id n sig = true := by
  unfold verifyRequest generateMessageToSign
  simp [h]

/-! ## A contract to pay with -/

/-- A pay-as-you-go contract that its client spends. -/
def soleContract (ctx : Context) (id : ℕ) (client : PubKey) : Contract where
  provider := client
  client := client
  delegate := client
  type := .payAsYouGo
  height := ctx.blockHeight
  duration := 1
  rate := ⟨denom, 1⟩
  id := id
  queriesPerMinute := 1

/-- A store with that contract only. -/
def soleStore (ctx : Context) (id : ℕ) (client : PubKey) : ChainState where
  contracts := AList.insert id (soleContract ctx id client) ∅
  userSets := AList.insert (toUpper client) ⟨client, some [id]⟩ ∅
  nextContractId := id + 1

theorem soleContract_wf (hl : Lawful cr) (id : ℕ) {client : PubKey} {pk : Bytes}
    (hpk : cr.getPubKeyFromBech32 client = some pk) : (soleContract ctx id client).Wf cr := by
  have hne : client ≠ "" := by
    rintro rfl
    rw [hl.empty] at hpk
    cases hpk
  have haddr : ∃ addr, cr.getMyAddress client = some addr :=
    ⟨cr.address pk, by rw [Crypto.getMyAddress, hpk]; rfl⟩
  have hmax := maxContractLength_toInt
  have hpos := ctx.pos
  have hfits := ctx.fits
  have hone : (1 : Int64).toInt = 1 := by decide
  constructor
  case height_pos => exact hpos
  case height_fits => exact hfits
  case end_fits =>
    intro _
    change ctx.blockHeight.toInt + (1 : Int64).toInt + (0 : Int64).toInt < 2 ^ 63
    rw [hone, Int64.toInt_zero]
    omega
  case known => exact .inr rfl
  case provider_address => exact haddr
  case client_address => exact haddr
  case provider_ne => exact hne
  case client_ne => exact hne
  case delegate_ne => exact hne
  case rate_fits =>
    intro htype
    cases htype
  case settled_paid => exact fun h => absurd rfl h
  all_goals (simp only [soleContract]; decide)

theorem lookup_sole {ctx : Context} {id k : ℕ} {client : PubKey} {c : Contract}
    (h : (soleStore ctx id client).contracts.lookup k = some c) :
    k = id ∧ c = soleContract ctx id client := by
  have hs : (soleStore ctx id client).contracts = AList.insert id (soleContract ctx id client) ∅ := rfl
  rw [hs] at h
  by_cases hk : k = id
  · subst hk
    rw [AList.lookup_insert] at h
    exact ⟨rfl, (Option.some.inj h).symm⟩
  · rw [AList.lookup_insert_ne hk] at h
    cases h

theorem soleStore_userIds (ctx : Context) (id : ℕ) (client : PubKey) (key : String) :
    (soleStore ctx id client).userIds key = if key = toUpper client then [id] else [] := by
  change (((AList.insert (toUpper client) _ ∅).lookup key).bind _).getD [] = _
  by_cases hk : key = toUpper client
  · rw [if_pos hk, hk, AList.lookup_insert]
    rfl
  · rw [if_neg hk, AList.lookup_insert_ne hk]
    rfl

theorem soleStore_inv (hl : Lawful cr) (ctx : Context) (id : ℕ) {client : PubKey} {pk : Bytes}
    (hpk : cr.getPubKeyFromBech32 client = some pk) : Inv cr ctx (soleStore ctx id client) := by
  have hwf : (soleContract ctx id client).Wf cr := soleContract_wf hl id hpk
  have hspend : (soleContract ctx id client).getSpender = client := hwf.getSpender_eq
  constructor
  case setHeights =>
    intro t set h
    cases h
  case setUsers =>
    intro key set h
    have hs : (soleStore ctx id client).userSets =
        AList.insert (toUpper client) ⟨client, some [id]⟩ ∅ := rfl
    rw [hs] at h
    by_cases hk : key = toUpper client
    · subst hk
      rw [AList.lookup_insert] at h
      cases h
      rfl
    · rw [AList.lookup_insert_ne hk] at h
      cases h
  case stored =>
    intro k c h
    obtain ⟨rfl, rfl⟩ := lookup_sole h
    exact ⟨rfl, hwf, le_refl _, Nat.lt_succ_self _, fun _ => by simp only [soleContract]; decide⟩
  case indexed =>
    intro k c h _
    obtain ⟨rfl, rfl⟩ := lookup_sole h
    rw [soleStore_userIds, hspend, if_pos rfl]
    exact List.mem_singleton_self _
  case owned =>
    intro key k h
    rw [soleStore_userIds] at h
    split at h
    · rename_i hk
      obtain rfl := List.mem_singleton.mp h
      exact ⟨_, AList.lookup_insert _, rfl, by rw [hspend]; exact hk⟩
    · cases h
  case nodup =>
    intro key
    rw [soleStore_userIds]
    split
    · exact List.nodup_singleton _
    · exact List.nodup_nil
  case nonneg =>
    intro a d
    exact le_refl 0
  case supply =>
    intro d
    change Ledger.supply ∅ d < 2 ^ 256
    have h0 : Ledger.supply (∅ : Ledger Account String) d = 0 := AList.sumOver_empty _
    rw [h0]
    decide
  case solvent =>
    intro d
    have howed : (soleStore ctx id client).owed d = 0 := by
      change AList.sumOver _ (AList.insert id (soleContract ctx id client) ∅) = 0
      rw [AList.sumOver_insert, AList.sumOver_empty, AList.valueAt_of_none rfl]
      simp [soleContract, Contract.remaining]
    rw [howed]
    exact le_refl 0
  case durations =>
    intro key p h
    cases h

theorem soleContract_open (ctx : Context) (id : ℕ) (client : PubKey) :
    (soleContract ctx id client).isSettled ctx.blockHeight = false := by
  have hpos := ctx.pos
  have hfits := ctx.fits
  have hmax := maxContractLength_toInt
  have hone : (1 : Int64).toInt = 1 := by decide
  have hne : ctx.blockHeight ≠ 0 := by
    intro h0
    rw [h0, Int64.toInt_zero] at hpos
    omega
  have hlt : ¬ctx.blockHeight + 1 < ctx.blockHeight := by
    rw [Int64.lt_iff_toInt_lt, toInt_add_of_fits] <;> omega
  simp [Contract.isSettled, Contract.isOpen, Contract.isEmpty, Contract.expiration, soleContract,
    hne, hlt]

/-- The 64-bit nonces of a contract with a rate of one never overflow. -/
theorem soleContract_dueFits (ctx : Context) (id : ℕ) (client : PubKey) (nonce : Int64) :
    ((soleContract ctx id client).raiseNonce nonce).DueFits ctx := by
  obtain ⟨hdue, hfits⟩ := Contract.due_payAsYouGo ctx
    (show ((soleContract ctx id client).raiseNonce nonce).type = .payAsYouGo from rfl)
  have hlt := Int64.toInt_lt ((soleContract ctx id client).raiseNonce nonce).nonce
  have hge := Int64.le_toInt ((soleContract ctx id client).raiseNonce nonce).nonce
  rw [hfits, hdue]
  change ((1 : ℤ) * _).natAbs < 2 ^ 256
  rw [Int.one_mul]
  omega

/-- That contract as a sentinel holds it. -/
def soleCached (id : ℕ) (client : PubKey) : CachedContract where
  client := client
  height := 1
  duration := 1
  rate := (denom, some 0)
  deposit := some 0
  id := id

/-- A sentinel that has it in memory, and no claim. -/
def soleSentinel (id : ℕ) (client : PubKey) : State where
  db := AList.insert id (soleCached id client) ∅

theorem soleSentinel_get (hub : Hub) (id : ℕ) (client : PubKey) :
    memStoreGet hub id (soleSentinel id client) =
      (some (soleCached id client), soleSentinel id client) := by
  have hdb : (soleSentinel id client).db.lookup id = some (soleCached id client) :=
    AList.lookup_insert _
  have hexp : (soleCached id client).isExpired (soleSentinel id client).blockHeight = false := rfl
  simp only [memStoreGet, hdb, hexp]
  rfl

/-! ## Every settings request -/

/-- **A settings request pays.**  The signature of every request that is accepted
is a payment: with the timestamp as the nonce, the chain takes it as an income
claim on a contract that is not open, whatever the chain id, and the paid tier of
every sentinel serves a query for it. -/
theorem settings_signature_pays (hl : Lawful cr) {raw : String} {auth : ContractAuth}
    {lastTimestamp : Int64} {client : PubKey} (hp : parseContractAuth raw = some auth)
    (hv : auth.validate cr lastTimestamp client = .ok ()) :
    (∀ ctx : Context, 0 < auth.timestamp.toInt → ∃ s c, Inv cr ctx s ∧
      s.contracts.lookup auth.contractId = some c ∧ c.client = client ∧
      c.isOpenAuthorization = false ∧
      ∀ creator, ∃ s', handlerClaimContractIncome cr ctx
        { creator := creator, contractId := auth.contractId, nonce := auth.timestamp
          signature := auth.signature } s = .ok () s') ∧
    (∀ cfg hub, ∃ s s', paidTier cr cfg hub
        { contractId := auth.contractId, nonce := auth.timestamp, signature := auth.signature }
        false s =
      .ok { contractId := auth.contractId, nonce := auth.timestamp, isOpen := false } s') := by
  obtain ⟨pk, hpk, hsig⟩ := ContractAuth.validate_ok hv
  rw [parseContractAuth_chainId hp] at hsig
  refine ⟨?_, ?_⟩
  · intro ctx hpos
    have hi : Inv cr ctx (soleStore ctx auth.contractId client) :=
      soleStore_inv hl ctx auth.contractId hpk
    have hlook : (soleStore ctx auth.contractId client).contracts.lookup auth.contractId =
        some (soleContract ctx auth.contractId client) := AList.lookup_insert _
    have hwf := (hi.stored _ _ hlook).wf
    refine ⟨_, _, hi, hlook, rfl, rfl, fun creator => ⟨_, claimContractIncome_accepts hi hlook ?_ ?_ ?_ ?_⟩⟩
    · rw [Int64.lt_iff_toInt_lt]
      exact hpos
    · exact soleContract_open ctx _ client
    · exact soleContract_dueFits ctx _ client _
    · exact ⟨pk, by rw [hwf.getSpender_eq]; exact hpk, verifyClaim_of_message hl hsig ctx.chainID⟩
  · intro cfg hub
    have hget := soleSentinel_get hub auth.contractId client
    refine ⟨_, _, paidTier_serves cfg hget ⟨rfl, nofun, rfl⟩ rfl ?_ nofun ⟨⟨0, rfl⟩, 0, rfl⟩⟩
    exact ⟨pk, hpk, verifyRequest_of_message hsig⟩

namespace Sample
open Arkeo.Sample

theorem crypto_verify {pk m sig : Bytes} (h : crypto.verifySignature pk m sig = true) :
    (pk = client.key ∧ m = [50, 58, 53, 58] ∧ sig = clientSignature) ∨
      pk = stranger.key ∧ m = [50, 58, 55, 58] ∧ sig = strangerSignature := by
  have hmem : (pk, m, sig) ∈ [(client.key, ([50, 58, 53, 58] : Bytes), clientSignature),
      (stranger.key, [50, 58, 55, 58], strangerSignature)] := List.contains_iff_mem.mp h
  rcases List.mem_cons.mp hmem with h | h
  · cases h
    exact .inl ⟨rfl, rfl, rfl⟩
  · cases List.mem_singleton.mp h
    exact .inr ⟨rfl, rfl, rfl⟩

theorem crypto_lawful : Lawful crypto where
  empty := by decide
  sized pk m sig h := by
    rcases crypto_verify h with ⟨-, -, rfl⟩ | ⟨-, -, rfl⟩
    · rfl
    · rfl

theorem crypto_ideal : Ideal crypto where
  unique pk pk' m m' sig h h' := by
    rcases crypto_verify h with ⟨rfl, rfl, rfl⟩ | ⟨rfl, rfl, rfl⟩
    · rcases crypto_verify h' with ⟨rfl, rfl, -⟩ | ⟨-, -, h⟩
      · exact ⟨rfl, rfl⟩
      · exact absurd h (by decide)
    · rcases crypto_verify h' with ⟨-, -, h⟩ | ⟨rfl, rfl, -⟩
      · exact absurd h (by decide)
      · exact ⟨rfl, rfl⟩
  sha256 := digest_injective (by decide +kernel) (by decide +kernel)

theorem setup_run :
    Runs.run (Arkeo.step crypto) Arkeo.Sample.genesis Arkeo.Sample.setup = some Arkeo.Sample.offering :=
  Arkeo.Sample.run_eq (by decide +kernel)

theorem client_contractAuth : parseContractAuth clientHeader =
    some { contractId := 2, timestamp := 5, signature := clientSignature } := by
  decide +kernel

end Sample

/-- The sample request is accepted, and pays. -/
theorem settings_signature_pays_at_five : ∃ auth,
    parseContractAuth Sample.clientHeader = some auth ∧
    auth.validate Sample.crypto 0 Arkeo.Sample.client.pubKey = .ok () ∧
    ∀ cfg hub, ∃ s s', paidTier Sample.crypto cfg hub
        { contractId := auth.contractId, nonce := auth.timestamp, signature := auth.signature }
        false s =
      .ok { contractId := auth.contractId, nonce := auth.timestamp, isOpen := false } s' := by
  have hv : ContractAuth.validate Sample.crypto
      { contractId := 2, timestamp := 5, signature := Sample.clientSignature } 0
      Arkeo.Sample.client.pubKey = .ok () := by decide +kernel
  exact ⟨_, Sample.client_contractAuth, hv,
    (settings_signature_pays Sample.crypto_lawful Sample.client_contractAuth hv).2⟩

/-- **A settings request drawn as income.**  The client asks for the settings of
contract 2, which it has just opened, and the provider presents the signature to
the chain: it is paid for five calls. -/
theorem settings_request_paid_on_chain : Ideal Sample.crypto ∧ ∃ auth w w' c,
    parseContractAuth Sample.clientHeader = some auth ∧
    auth.validate Sample.crypto 0 Arkeo.Sample.client.pubKey = .ok () ∧
    Runs.run (Arkeo.step Sample.crypto) Arkeo.Sample.genesis
      (Arkeo.Sample.setup ++
        [.msg (.openContract (Arkeo.Sample.openMsg .subscription 10)),
         .msg (.openContract (Arkeo.Sample.openMsg .payAsYouGo 100))]) = some w ∧
    Arkeo.step Sample.crypto w (.msg (.claimContractIncome
      { creator := Arkeo.Sample.provider.account, contractId := auth.contractId
        nonce := auth.timestamp, signature := auth.signature })) = some w' ∧
    w'.chain.contracts.lookup 2 = some c ∧ c.paid = 50 := by
  have h : ((Runs.run (Arkeo.step Sample.crypto) Arkeo.Sample.genesis
      (Arkeo.Sample.setup ++
        [.msg (.openContract (Arkeo.Sample.openMsg .subscription 10)),
         .msg (.openContract (Arkeo.Sample.openMsg .payAsYouGo 100))])).bind fun w =>
      (Arkeo.step Sample.crypto w (.msg (.claimContractIncome
        { creator := Arkeo.Sample.provider.account, contractId := 2, nonce := 5
          signature := Sample.clientSignature }))).bind fun w' =>
        (w'.chain.contracts.lookup 2).map Contract.paid) = some 50 := by
    rw [Runs.run_append_of Sample.setup_run]
    decide +kernel
  obtain ⟨w, hw, h⟩ := Option.bind_eq_some_iff.mp h
  obtain ⟨w', hw', h⟩ := Option.bind_eq_some_iff.mp h
  obtain ⟨c, hc, h⟩ := Option.map_eq_some_iff.mp h
  exact ⟨Sample.crypto_ideal,
    { contractId := 2, timestamp := 5, signature := Sample.clientSignature }, w, w', c,
    Sample.client_contractAuth, by decide +kernel, hw, hw', hc, h⟩

end Arkeo.Sentinel
