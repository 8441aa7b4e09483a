import Arkeo.Sentinel.Claims
import Arkeo.Sentinel.Domains

/-! # Which stored claims the chain pays

The paid tier verifies a request before it stores the claim, so that only claims
that can be presented to the chain are stored.  It does so under the key the
request brings along, or under the client's, and accepts Ethereum digests; the
chain verifies under the key of the contract's spender and knows no such digests.
`stored_claim_passes_iff` says which stored claims pass the chain's test;
`stranger_served_for_nothing` is one that does not.
-/
namespace Arkeo.Sentinel
open Exec Text

variable {cr : Crypto} {cfg : Config} {hub : Hub} {ctx : Context} {aa : ArkAuth}

/-! ## The chain's test -/

/-- The messages the chain verifies a claim against. -/
def claimMessages (cr : Crypto) (id : ℕ) (nonce : Int64) (chainID : String) : List Bytes :=
  [getBytesToSign id nonce chainID, cr.sha256 (getBytesToSign id nonce chainID),
    getBytesToSign id nonce "", cr.sha256 (getBytesToSign id nonce "")]

theorem verifyAny_iff {pk sig : Bytes} {id : ℕ} {n : Int64} {chainID : String} :
    verifyAny cr pk id n chainID sig = true ↔
      ∃ m ∈ claimMessages cr id n chainID, cr.verifySignature pk m sig = true := by
  simp [verifyAny, claimMessages, or_assoc]

/-- The signature test of the chain, of a stored claim. -/
def Claim.Passes (cr : Crypto) (ctx : Context) (onChain : Contract) (claim : Claim) : Prop :=
  ∃ sig, hexDecode claim.signature = some sig ∧ ∀ creator s,
    checkClaimSignature cr ctx onChain
      { creator := creator, contractId := claim.contractId, nonce := claim.nonce
        signature := sig } s = .ok () s

/-- Signatures are only accepted with a low `s`, as the library documents. -/
def LowS (cr : Crypto) : Prop :=
  ∀ pk m sig, cr.verifySignature pk m sig = true → ¬secpHalfN < setBytes (sig.drop 32)

/-- The Ethereum digests of a request are none of the messages the chain knows. -/
def DigestsApart (cr : Crypto) (ctx : Context) (aa : ArkAuth) : Prop :=
  ∀ m ∈ claimMessages cr aa.contractId aa.nonce ctx.chainID,
    m ≠ cr.keccak256 (generateMessageToSign aa.contractId aa.nonce) ∧
      m ≠ cr.keccak256 (personalMessage (generateMessageToSign aa.contractId aa.nonce))

/-- The claim of a request, as far as the chain tests it. -/
theorem passes_iff {onChain : Contract} {claim : Claim}
    (ho : onChain.isOpenAuthorization = false) (hid : claim.contractId = aa.contractId)
    (hn : claim.nonce = aa.nonce) (hs : claim.signature = hexEncode aa.signature) :
    claim.Passes cr ctx onChain ↔ ∃ pk, cr.getPubKeyFromBech32 onChain.getSpender = some pk ∧
      verifyClaim cr pk aa.contractId aa.nonce ctx.chainID aa.signature = true := by
  have hdec : hexDecode claim.signature = some aa.signature := by
    rw [hs, hexDecode_hexEncode]
  have hnot : ¬(onChain.isSubscription && onChain.isOpenAuthorization) = true := by
    rw [ho, Bool.and_false]
    exact Bool.false_ne_true
  constructor
  · rintro ⟨sig, hsig, h⟩
    obtain rfl := Option.some.inj (hsig.symm.trans hdec)
    rcases (checkClaimSignature_ok.mp (h "" {})).1 with hopen | hv
    · exact absurd hopen hnot
    · rw [hid, hn] at hv
      exact hv
  · intro h
    refine ⟨aa.signature, hdec, fun creator s => checkClaimSignature_ok.mpr ⟨.inr ?_, rfl⟩⟩
    rw [hid, hn]
    exact h

/-! ## The condition -/

/-- The key a request is made with: its own, or the client's. -/
def ArkAuth.requestKey (aa : ArkAuth) (client : PubKey) : PubKey :=
  if aa.spender = "" then client else aa.spender

/-- **The condition.**  The request is made with the key of the contract's spender,
and signed the way claims are: over the preimage or its SHA-256 digest. -/
def ArkAuth.SignedAsClaim (cr : Crypto) (aa : ArkAuth) (onChain : Contract) : Prop :=
  ∃ pk, cr.getPubKeyFromBech32 (aa.requestKey onChain.client) = some pk ∧
    cr.getPubKeyFromBech32 onChain.getSpender = some pk ∧
    (cr.verifySignature pk (cr.sha256 (generateMessageToSign aa.contractId aa.nonce))
        aa.signature = true ∨
      cr.verifySignature pk (generateMessageToSign aa.contractId aa.nonce) aa.signature = true)

theorem verifyClaim_of_signedAsClaim (hl : Lawful cr) {onChain : Contract}
    (h : aa.SignedAsClaim cr onChain) (chainID : String) :
    ∃ pk, cr.getPubKeyFromBech32 onChain.getSpender = some pk ∧
      verifyClaim cr pk aa.contractId aa.nonce chainID aa.signature = true := by
  obtain ⟨pk, -, hpk, hv⟩ := h
  refine ⟨pk, hpk, ?_⟩
  rcases hv with hv | hv
  · unfold generateMessageToSign at hv
    unfold verifyClaim verifyAny
    simp [hl.sized _ _ _ hv, hv]
  · exact verifyClaim_of_message hl hv chainID

/-- With ideal signatures, a signature that passes both tests is one of a claim, by
the spender. -/
theorem signedAsClaim_of_verifyClaim (hid : Ideal cr) (hlow : LowS cr)
    (hd : DigestsApart cr ctx aa) {onChain : Contract} {pk pk' : Bytes}
    (hkey : cr.getPubKeyFromBech32 (aa.requestKey onChain.client) = some pk)
    (hreq : verifyRequest cr pk aa.contractId aa.nonce aa.signature = true)
    (hpk' : cr.getPubKeyFromBech32 onChain.getSpender = some pk')
    (hv : verifyClaim cr pk' aa.contractId aa.nonce ctx.chainID aa.signature = true) :
    aa.SignedAsClaim cr onChain := by
  simp only [verifyRequest, Bool.or_eq_true] at hreq
  -- a signature that verifies is never normalised
  have hany : verifyAny cr pk' aa.contractId aa.nonce ctx.chainID aa.signature = true := by
    simp only [verifyClaim, Bool.and_eq_true, Bool.or_eq_true, decide_eq_true_eq] at hv
    rcases hv.2 with h | ⟨hhigh, -⟩
    · exact h
    · rcases hreq with ((h | h) | h) | h
      all_goals exact absurd hhigh (hlow _ _ _ h)
  obtain ⟨m, hm, hv⟩ := verifyAny_iff.mp hany
  rcases hreq with ((h | h) | h) | h
  · obtain ⟨rfl, rfl⟩ := hid.unique _ _ _ _ _ h hv
    exact ⟨pk, hkey, hpk', .inl h⟩
  · obtain ⟨rfl, rfl⟩ := hid.unique _ _ _ _ _ h hv
    exact ⟨pk, hkey, hpk', .inr h⟩
  · exact absurd (hid.unique _ _ _ _ _ hv h).2 (hd m hm).1
  · exact absurd (hid.unique _ _ _ _ _ hv h).2 (hd m hm).2

/-! ## The stored claim -/

/-- The contract the sentinel finds is the one on the chain. -/
def Mirrors (c : CachedContract) (onChain : Contract) : Prop :=
  c.client = onChain.client ∧ c.delegate = onChain.delegate ∧
    c.authorization = onChain.authorization

/-- A request that is charged by a claim: what was tested, and what is stored. -/
theorem paidTier_stores {s s' : State} {limited : Bool} {charge : Charge} (hk : s.Keyed)
    (h : paidTier cr cfg hub aa limited s = .ok charge s') (hopen : charge.isOpen = false) :
    ∃ c claim, (memStoreGet hub aa.contractId s).1 = some c ∧ c.isOpenAuthorization = false ∧
      (aa.inferSpender c).Signed cr ∧ s'.claims.lookup aa.contractId = some claim ∧
      claim.contractId = aa.contractId ∧ claim.nonce = aa.nonce ∧
      claim.signature = hexEncode aa.signature := by
  have ho := paidTier_outcome cr cfg hub aa limited s
  rw [h] at ho
  cases ho with
  | openly c t hg ha ho => cases hopen
  | stored c t u hg ha ho hsig hf hu _ hr =>
    rcases hr with ⟨-, hr⟩ | hr
    · cases hr
      have ht : t.Keyed := by
        have hget := memStoreGet_claims hub aa.contractId s
        rw [hg] at hget
        exact hk.of_eq hget
      have hlook := ht.withClaim_lookup cfg (aa.inferSpender c) aa.contractId
      rw [if_pos (ArkAuth.inferSpender_contractId c).symm] at hlook
      refine ⟨c, _, by rw [hg], ho, hsig, by rw [hu]; exact hlook, ?_, ?_, ?_⟩
      · exact (ht.claimFor_contractId cfg _).trans (ArkAuth.inferSpender_contractId c)
      · exact ArkAuth.inferSpender_nonce c
      · exact congrArg hexEncode (ArkAuth.inferSpender_signature c)
    · cases hr

/-- **Which stored claims the chain pays.**  In every state the sentinel reaches, a
request that is served on a contract that is not open stores its claim.  The claim
passes the chain's test if the request is signed as a claim by the spender, and,
with ideal signatures, only then. -/
theorem stored_claim_passes_iff (ctx : Context) (hl : Lawful cr) {actions : List Action} {w : World}
    (hrun : Runs.run (step cr cfg hub) {} actions = some w) {limited : Bool} {charge : Charge}
    {s' : State} (h : paidTier cr cfg hub aa limited w.state = .ok charge s')
    (hopen : charge.isOpen = false) {onChain : Contract}
    (hm : ∀ c, (memStoreGet hub aa.contractId w.state).1 = some c → Mirrors c onChain) :
    ∃ claim, s'.claims.lookup aa.contractId = some claim ∧ claim.contractId = aa.contractId ∧
      claim.nonce = aa.nonce ∧
      (aa.SignedAsClaim cr onChain → claim.Passes cr ctx onChain) ∧
      (Ideal cr → LowS cr → DigestsApart cr ctx aa →
        (claim.Passes cr ctx onChain ↔ aa.SignedAsClaim cr onChain)) := by
  obtain ⟨c, claim, hc, ho, hsig, hlook, hid, hn, hs⟩ :=
    paidTier_stores (reachable_keyed hrun) h hopen
  obtain ⟨hclient, hdelegate, hauth⟩ := hm c hc
  have hclosed : onChain.isOpenAuthorization = false := by
    unfold CachedContract.isOpenAuthorization CachedContract.life Contract.isOpenAuthorization at ho
    unfold Contract.isOpenAuthorization
    rw [← hauth]
    exact ho
  have hkey : (aa.inferSpender c).spender = aa.requestKey onChain.client := by
    unfold ArkAuth.inferSpender ArkAuth.requestKey
    rw [← hclient]
    split <;> rfl
  obtain ⟨pk, hpk, hreq⟩ := hsig
  rw [hkey] at hpk
  rw [ArkAuth.inferSpender_contractId, ArkAuth.inferSpender_nonce,
    ArkAuth.inferSpender_signature] at hreq
  have hiff : claim.Passes cr ctx onChain ↔ _ := passes_iff hclosed hid hn hs
  refine ⟨claim, hlook, hid, hn, ?_, ?_⟩
  · intro hsigned
    exact hiff.mpr (verifyClaim_of_signedAsClaim hl hsigned ctx.chainID)
  · intro hideal hlow hd
    constructor
    · intro hp
      obtain ⟨pk', hpk', hv⟩ := hiff.mp hp
      exact signedAsClaim_of_verifyClaim hideal hlow hd hpk hreq hpk' hv
    · intro hsigned
      exact hiff.mpr (verifyClaim_of_signedAsClaim hl hsigned ctx.chainID)

namespace Sample
open Arkeo.Sample

/-- The contract on the chain. -/
def onChain : Contract where
  provider := provider.pubKey
  service := 10
  client := client.pubKey
  delegate := client.pubKey
  type := .payAsYouGo
  height := 1
  duration := 1
  rate := ⟨denom, 10⟩
  deposit := 100
  id := 2
  settlementDuration := 1
  queriesPerMinute := 1

/-- The hub's answer for that contract; the name under which it has the provider is
not the one the sentinel looks for. -/
def answer : FetchContract where
  id := "2"
  service := 10
  client := client.pubKey
  delegate := client.pubKey
  type := .payAsYouGo
  height := "1"
  duration := "1"
  rate := (denom, some 10)
  deposit := "100"
  paid := "0"
  nonce := "0"
  settlementHeight := "0"
  queriesPerMinute := "1"

/-- A hub that does not answer. -/
def silent : Hub := fun _ _ => none

/-- The sentinel has seen the contract being opened. -/
def watching : World where
  state := handleOpenContract config opening { blockHeight := 1 }

theorem watching_run : Runs.run (step crypto config silent) {} [.newBlock 1 [], .opened opening] =
    some watching := rfl

theorem watching_mirrors (c : CachedContract)
    (h : (memStoreGet silent 2 watching.state).1 = some c) : Mirrors c onChain := by
  have hget : ((memStoreGet silent 2 watching.state).1.map fun c =>
      (c.client, c.delegate, c.authorization)) =
        some (onChain.client, onChain.delegate, onChain.authorization) := by decide +kernel
  rw [h] at hget
  simp only [Option.map_some, Option.some.injEq, Prod.mk.injEq] at hget
  exact hget

def clientAuth : ArkAuth where
  contractId := 2
  nonce := 5
  signature := clientSignature
  chainId := "arkeo"

def strangerAuth : ArkAuth where
  contractId := 2
  spender := stranger.pubKey
  nonce := 7
  signature := strangerSignature
  chainId := "arkeo"

theorem client_parsed : parseArkAuth crypto clientHeader "arkeo" = some clientAuth := by
  decide +kernel

theorem stranger_parsed : parseArkAuth crypto strangerHeader "arkeo" = some strangerAuth := by
  decide +kernel

theorem client_fetched {r : Request} {cfg : Config} (h : r.arkauth = clientHeader)
    (hchain : cfg.sourceChain = "arkeo") : r.fetchArkAuth crypto cfg = some clientAuth := by
  rw [Request.fetchArkAuth, h, hchain, if_pos (by decide +kernel), client_parsed]

theorem stranger_fetched {r : Request} {cfg : Config} (h : r.arkauth = strangerHeader)
    (hchain : cfg.sourceChain = "arkeo") : r.fetchArkAuth crypto cfg = some strangerAuth := by
  rw [Request.fetchArkAuth, h, hchain, if_pos (by decide +kernel), stranger_parsed]

/-- The charge of a request to the sample sentinel. -/
def chargeOf (aa : ArkAuth) : Option Charge :=
  match paidTier crypto config silent aa false watching.state with
  | .ok charge _ => some charge
  | .error _ _ => none

theorem chargeOf_some {aa : ArkAuth} {charge : Charge} (h : chargeOf aa = some charge) :
    ∃ s', paidTier crypto config silent aa false watching.state = .ok charge s' := by
  unfold chargeOf at h
  split at h
  · rename_i s' hs
    cases h
    exact ⟨s', hs⟩
  · cases h

end Sample

/-- The client's query is served, and the chain pays for it. -/
theorem client_claim_passes : ∃ s' claim,
    parseArkAuth Sample.crypto Sample.clientHeader "arkeo" = some Sample.clientAuth ∧
    paidTier Sample.crypto Sample.config Sample.silent Sample.clientAuth false
      Sample.watching.state = .ok { contractId := 2, nonce := 5, isOpen := false } s' ∧
    s'.claims.lookup 2 = some claim ∧
    claim.Passes Sample.crypto Arkeo.Sample.genesis.ctx Sample.onChain := by
  obtain ⟨s', h⟩ := Sample.chargeOf_some
    (show Sample.chargeOf Sample.clientAuth = some ⟨2, 5, false⟩ by decide +kernel)
  obtain ⟨claim, hlook, -, -, hp, -⟩ := stored_claim_passes_iff Arkeo.Sample.genesis.ctx
    Sample.crypto_lawful Sample.watching_run h rfl Sample.watching_mirrors
  refine ⟨s', claim, Sample.client_parsed, h, hlook, hp ⟨Arkeo.Sample.client.key, ?_, ?_, .inr ?_⟩⟩
  all_goals decide +kernel

/-- **Served for nothing.**  A stranger names its own key in a request on the client's
contract: the request is served and its claim is stored, and the chain rejects it. -/
theorem stranger_served_for_nothing : Ideal Sample.crypto ∧ ∃ s' claim,
    parseArkAuth Sample.crypto Sample.strangerHeader "arkeo" = some Sample.strangerAuth ∧
    paidTier Sample.crypto Sample.config Sample.silent Sample.strangerAuth false
      Sample.watching.state = .ok { contractId := 2, nonce := 7, isOpen := false } s' ∧
    s'.claims.lookup 2 = some claim ∧
    ¬claim.Passes Sample.crypto Arkeo.Sample.genesis.ctx Sample.onChain := by
  obtain ⟨s', h⟩ := Sample.chargeOf_some
    (show Sample.chargeOf Sample.strangerAuth = some ⟨2, 7, false⟩ by decide +kernel)
  obtain ⟨c, claim, -, -, -, hlook, hid, hn, hs⟩ :=
    paidTier_stores (reachable_keyed Sample.watching_run) h rfl
  refine ⟨Sample.crypto_ideal, s', claim, Sample.stranger_parsed, h, hlook, ?_⟩
  rw [passes_iff rfl hid hn hs]
  rintro ⟨pk, hpk, hv⟩
  have hkey : pk = Arkeo.Sample.client.key := by
    have hc : Sample.crypto.getPubKeyFromBech32 Sample.onChain.getSpender =
        some Arkeo.Sample.client.key := by decide +kernel
    exact Option.some.inj (hpk.symm.trans hc)
  rw [hkey] at hv
  revert hv
  decide +kernel

end Arkeo.Sentinel
