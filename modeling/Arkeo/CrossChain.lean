import Arkeo.Sentinel.Claimable

/-! # Income claims on two chains

An income claim is signed over `<contract>:<nonce>:<chain id>`, so that it is good
on one chain only.  For the sake of clients that leave the chain id out the handler
also takes a signature over `<contract>:<nonce>:`, and on an open subscription it
asks for none: either is good on every chain (`signature_taken_on_two_chains`).
Nothing else is.  A signature that two chains take, on contracts that ask for one,
was made without a chain id, for one contract id, one nonce and one key.
-/
namespace Arkeo
open Exec Text Sentinel

variable {cr : Crypto} {ctx ctx' : Context} {s s' : ChainState}
  {msg msg' : MsgClaimContractIncome}

/-- The handler takes the claim. -/
def Accepts (cr : Crypto) (ctx : Context) (s : ChainState) (msg : MsgClaimContractIncome) : Prop :=
  ∃ t, handlerClaimContractIncome cr ctx msg s = .ok () t

/-- The contract is none of the open subscriptions, which are claimed without a
signature. -/
def ChainState.AsksForSignature (s : ChainState) (id : ℕ) : Prop :=
  ∀ c, s.contracts.lookup id = some c → (c.isSubscription && c.isOpenAuthorization) = false

/-- No digest is the text of a claim. -/
def DigestsNoTexts (cr : Crypto) : Prop :=
  ∀ m id nonce chainID, cr.sha256 m ≠ getBytesToSign id nonce chainID

/-- The form of a signature that is verified: the one with a low `s`. -/
def lowForm (sig : Bytes) : Bytes :=
  if secpHalfN < setBytes (sig.drop 32) then normalizeS sig else sig

/-- The key signed the claim without a chain id: the text as it is, or its digest. -/
def SignedWithoutChain (cr : Crypto) (pk : Bytes) (msg : MsgClaimContractIncome) : Prop :=
  cr.verifySignature pk (getBytesToSign msg.contractId msg.nonce "") (lowForm msg.signature) = true ∨
    cr.verifySignature pk (cr.sha256 (getBytesToSign msg.contractId msg.nonce ""))
      (lowForm msg.signature) = true

/-! ## The text of a claim -/

theorem toList_claimText (id : ℕ) (nonce : Int64) (chainID : String) :
    (toString id ++ ":" ++ toString nonce.toInt ++ ":" ++ chainID).toList =
      id.repr.toList ++ ':' :: (nonce.toInt.repr.toList ++ ':' :: chainID.toList) := by
  rw [show toString id = id.repr from rfl, show toString nonce.toInt = nonce.toInt.repr from rfl]
  simp only [String.toList_append]
  rw [show (":" : String).toList = [':'] from rfl]
  simp only [List.append_assoc, List.cons_append, List.nil_append]

/-- **The text says it all**: the contract, the nonce and the chain. -/
theorem getBytesToSign_inj {id id' : ℕ} {n n' : Int64} {chainID chainID' : String}
    (h : getBytesToSign id n chainID = getBytesToSign id' n' chainID') :
    id = id' ∧ n = n' ∧ chainID = chainID' := by
  have htext := String.toByteArray_inj.mp (ByteArray.ext (Array.toList_inj.mp h))
  have hlist := congrArg String.toList htext
  rw [toList_claimText, toList_claimText] at hlist
  -- neither number has a colon in it
  have hnat : ∀ m : ℕ, ':' ∉ m.repr.toList := notMem_natRepr rfl
  have hint : ∀ i : ℤ, ':' ∉ i.repr.toList := notMem_intRepr rfl (by decide)
  obtain ⟨hid, hrest⟩ := field_inj (hnat id) (hnat id') hlist
  obtain ⟨hn, hchain⟩ := field_inj (hint n.toInt) (hint n'.toInt) hrest
  refine ⟨natRepr_inj (String.toList_inj.mp hid), ?_, String.toList_inj.mp hchain⟩
  exact Int64.toInt_inj.mp (intRepr_inj (String.toList_inj.mp hn))

theorem mem_claimMessages {m : Bytes} {id : ℕ} {n : Int64} {chainID : String} :
    m ∈ claimMessages cr id n chainID ↔ ∃ chain, (chain = chainID ∨ chain = "") ∧
      (m = getBytesToSign id n chain ∨ m = cr.sha256 (getBytesToSign id n chain)) := by
  unfold claimMessages
  simp only [List.mem_cons, List.not_mem_nil, or_false]
  constructor
  · rintro (h | h | h | h)
    · exact ⟨chainID, .inl rfl, .inl h⟩
    · exact ⟨chainID, .inl rfl, .inr h⟩
    · exact ⟨"", .inr rfl, .inl h⟩
    · exact ⟨"", .inr rfl, .inr h⟩
  · rintro ⟨chain, rfl | rfl, h | h⟩
    · exact .inl h
    · exact .inr (.inl h)
    · exact .inr (.inr (.inl h))
    · exact .inr (.inr (.inr h))

/-- A message that two chains know names neither. -/
theorem shared_message (hid : Ideal cr) (htext : DigestsNoTexts cr) {m : Bytes} {id id' : ℕ}
    {n n' : Int64} {chainID chainID' : String} (h0 : chainID ≠ "") (hne : chainID ≠ chainID')
    (h : m ∈ claimMessages cr id n chainID) (h' : m ∈ claimMessages cr id' n' chainID') :
    id = id' ∧ n = n' ∧
      (m = getBytesToSign id n "" ∨ m = cr.sha256 (getBytesToSign id n "")) := by
  obtain ⟨chain, hchain, hm⟩ := mem_claimMessages.mp h
  obtain ⟨chain', hchain', hm'⟩ := mem_claimMessages.mp h'
  have hsame : getBytesToSign id n chain = getBytesToSign id' n' chain' := by
    rcases hm with hm | hm
    · rcases hm' with hm' | hm'
      · exact hm.symm.trans hm'
      · exact absurd (hm'.symm.trans hm) (htext _ _ _ _)
    · rcases hm' with hm' | hm'
      · exact absurd (hm.symm.trans hm') (htext _ _ _ _)
      · exact hid.sha256 (hm.symm.trans hm')
  obtain ⟨hid', hn', rfl⟩ := getBytesToSign_inj hsame
  have hempty : chain = "" := by
    rcases hchain with rfl | h
    · rcases hchain' with h | h
      · exact absurd h hne
      · exact absurd h h0
    · exact h
  rw [hempty] at hm
  exact ⟨hid', hn', hm⟩

/-! ## The handler -/

/-- Only the low form of a signature is ever accepted. -/
theorem verifyClaim_lowForm (hlow : LowS cr) {pk sig : Bytes} {id : ℕ} {n : Int64}
    {chainID : String} (h : verifyClaim cr pk id n chainID sig = true) :
    ∃ m ∈ claimMessages cr id n chainID, cr.verifySignature pk m (lowForm sig) = true := by
  simp only [verifyClaim, Bool.and_eq_true, Bool.or_eq_true, decide_eq_true_eq] at h
  rcases h.2 with hany | ⟨hhigh, hany⟩
  · obtain ⟨m, hm, hv⟩ := verifyAny_iff.mp hany
    refine ⟨m, hm, ?_⟩
    rw [lowForm, if_neg (hlow _ _ _ hv)]
    exact hv
  · obtain ⟨m, hm, hv⟩ := verifyAny_iff.mp hany
    refine ⟨m, hm, ?_⟩
    rw [lowForm, if_pos hhigh]
    exact hv

/-- What is signed in an accepted claim, where a signature is asked for. -/
theorem Accepts.signed (hlow : LowS cr) (hask : s.AsksForSignature msg.contractId)
    (h : Accepts cr ctx s msg) : ∃ c pk, s.contracts.lookup msg.contractId = some c ∧
      cr.getPubKeyFromBech32 c.getSpender = some pk ∧
      ∃ m ∈ claimMessages cr msg.contractId msg.nonce ctx.chainID,
        cr.verifySignature pk m (lowForm msg.signature) = true := by
  obtain ⟨t, ht⟩ := h
  obtain ⟨c, hc, -, -, hsig, -⟩ := claimContractIncome_checks ht
  rcases hsig with hopen | ⟨pk, hpk, hv⟩
  · rw [hask c hc] at hopen
    cases hopen
  · exact ⟨c, pk, hc, hpk, verifyClaim_lowForm hlow hv⟩

/-- **One signature, one chain.**  With ideal signatures, a signature that is taken
on two chains of different names, on contracts that ask for one, is the signature of
one spender, for one contract id and one nonce, over the text without a chain id. -/
theorem taken_on_two_chains (hid : Ideal cr) (hlow : LowS cr) (htext : DigestsNoTexts cr)
    (h0 : ctx.chainID ≠ "") (hne : ctx.chainID ≠ ctx'.chainID)
    (hsig : msg.signature = msg'.signature) (hask : s.AsksForSignature msg.contractId)
    (hask' : s'.AsksForSignature msg'.contractId) (h : Accepts cr ctx s msg)
    (h' : Accepts cr ctx' s' msg') :
    msg.contractId = msg'.contractId ∧ msg.nonce = msg'.nonce ∧ ∃ c c' pk,
      s.contracts.lookup msg.contractId = some c ∧ s'.contracts.lookup msg'.contractId = some c' ∧
      cr.getPubKeyFromBech32 c.getSpender = some pk ∧
      cr.getPubKeyFromBech32 c'.getSpender = some pk ∧ SignedWithoutChain cr pk msg := by
  obtain ⟨c, pk, hc, hpk, m, hm, hv⟩ := h.signed hlow hask
  obtain ⟨c', pk', hc', hpk', m', hm', hv'⟩ := h'.signed hlow hask'
  rw [← hsig] at hv'
  obtain ⟨rfl, rfl⟩ := hid.unique _ _ _ _ _ hv hv'
  obtain ⟨hids, hnonces, hplain⟩ := shared_message hid htext h0 hne hm hm'
  refine ⟨hids, hnonces, c, c', pk, hc, hc', hpk, hpk', ?_⟩
  rcases hplain with rfl | rfl
  · exact .inl hv
  · exact .inr hv

/-! ## Two chains -/

/-- A text of a claim begins with a digit. -/
theorem getBytesToSign_head (id : ℕ) (n : Int64) (chainID : String) :
    ∃ b rest, getBytesToSign id n chainID = b :: rest ∧ 48 ≤ b.toNat ∧ b.toNat ≤ 57 := by
  obtain ⟨d, ds, hd⟩ := List.exists_cons_of_ne_nil (Nat.toDigits_ne_nil (n := id) (b := 10))
  have hdigit : d.isDigit = true :=
    Nat.isDigit_of_mem_toDigits (by decide) (by decide) (hd ▸ List.mem_cons_self)
  have hrange : 48 ≤ d.val.toNat ∧ d.val.toNat ≤ 57 := Char.isDigit_iff_toNat.mp hdigit
  have hbyte : d.val.toUInt8.toNat = d.val.toNat := by
    rw [UInt32.toNat_toUInt8]
    omega
  have hone : String.utf8EncodeChar d = [d.val.toUInt8] := by
    refine String.utf8EncodeChar_eq_singleton (if_pos ?_)
    show d.val.toNat ≤ 127
    omega
  have hlist := toList_claimText id n chainID
  rw [toList_natRepr, hd, List.cons_append] at hlist
  unfold getBytesToSign
  rw [toUTF8_eq_flatMap, hlist, List.flatMap_cons, hone]
  exact ⟨d.val.toUInt8, _, rfl, by omega, by omega⟩

/-- A digest that begins with no digit is no text of a claim. -/
theorem digest_not_text {table : List (Bytes × Bytes)} {mark : UInt8}
    (hmark : ¬(48 ≤ mark.toNat ∧ mark.toNat ≤ 57))
    (htable : ∀ d ∈ table, ∀ b ∈ d.2.head?, ¬(48 ≤ b.toNat ∧ b.toNat ≤ 57)) (m : Bytes) (id : ℕ)
    (n : Int64) (chainID : String) : digest table mark m ≠ getBytesToSign id n chainID := by
  intro h
  obtain ⟨b, rest, htext, hb⟩ := getBytesToSign_head id n chainID
  rw [htext, digest] at h
  cases hf : table.find? fun d => d.1 = m with
  | none =>
    rw [hf] at h
    obtain ⟨rfl, -⟩ := List.cons.inj h
    exact hmark hb
  | some d =>
    rw [hf] at h
    refine htable d (List.mem_of_find?_eq_some hf) b ?_ hb
    rw [show d.2 = b :: rest from h]
    rfl

namespace Sample

theorem otherChain_pos : 0 < (1 : Int64).toInt := by decide

theorem otherChain_fits : (1 : Int64).toInt + (fetchConfig .maxContractLength).toInt < 2 ^ 63 := by
  decide

/-- A chain of another name, with the same users. -/
def otherChain : World :=
  { genesis with
    ctx := { blockHeight := 1, chainID := "otherchain", pos := otherChain_pos,
             fits := otherChain_fits } }

/-- On either chain the client opens contract 1, a subscription that anyone may use,
and contract 2, a pay-as-you-go contract. -/
def twoContracts : List Action :=
  setup ++
    [.msg (.openContract { openMsg .subscription 10 with authorization := .openAuth }),
     .msg (.openContract (openMsg .payAsYouGo 100))]

/-- The signature scheme, with the client's signature over `2:5:`. -/
def chainless : Crypto :=
  Crypto.known [provider, client] [(client.key, [50, 58, 53, 58], Sentinel.Sample.clientSignature)]
    [([50, 58, 53, 58],
      [16, 200, 134, 94, 21, 201, 166, 37, 149, 158, 108, 123, 155, 78, 107, 175, 179, 119, 97,
        24, 67, 186, 250, 37, 55, 90, 75, 113, 197, 204, 175, 242]),
     ([50, 58, 53, 58, 97, 114, 107, 101, 111],
      [161, 78, 234, 249, 79, 249, 42, 88, 209, 85, 236, 211, 160, 118, 148, 224, 193, 104, 220,
        155, 62, 241, 56, 59, 219, 64, 136, 134, 120, 173, 83, 142]),
     ([50, 58, 53, 58, 111, 116, 104, 101, 114, 99, 104, 97, 105, 110],
      [126, 21, 104, 86, 187, 2, 101, 248, 201, 16, 8, 230, 115, 85, 80, 80, 29, 66, 223, 237, 171,
        47, 9, 162, 161, 176, 27, 226, 32, 137, 59, 39])]
    []

theorem chainless_verify {pk m sig : Bytes} (h : chainless.verifySignature pk m sig = true) :
    pk = client.key ∧ m = [50, 58, 53, 58] ∧ sig = Sentinel.Sample.clientSignature := by
  have hmem : (pk, m, sig) ∈
      [(client.key, ([50, 58, 53, 58] : Bytes), Sentinel.Sample.clientSignature)] :=
    List.contains_iff_mem.mp h
  cases List.mem_singleton.mp hmem
  exact ⟨rfl, rfl, rfl⟩

theorem chainless_ideal : Ideal chainless where
  unique pk pk' m m' sig h h' := by
    obtain ⟨rfl, rfl, -⟩ := chainless_verify h
    obtain ⟨rfl, rfl, -⟩ := chainless_verify h'
    exact ⟨rfl, rfl⟩
  sha256 := digest_injective (by decide +kernel) (by decide +kernel)

theorem chainless_lowS : LowS chainless := by
  intro pk m sig h
  obtain ⟨-, -, rfl⟩ := chainless_verify h
  decide +kernel

theorem chainless_digests : DigestsNoTexts chainless :=
  digest_not_text (by decide +kernel) (by decide +kernel)

/-- The claim of five calls on contract 2. -/
def plainClaim : MsgClaimContractIncome where
  creator := provider.account
  contractId := 2
  nonce := 5
  signature := Sentinel.Sample.clientSignature

/-- A claim on the open subscription, with a signature that is none of it. -/
def openClaim : MsgClaimContractIncome :=
  { plainClaim with contractId := 1 }

theorem twoContracts_run {w : World} (hw : w = genesis ∨ w = otherChain) : ∃ w',
    Runs.run (step chainless) w twoContracts = some w' ∧ w'.ctx.chainID = w.ctx.chainID ∧
    w'.chain.AsksForSignature 2 ∧ Accepts chainless w'.ctx w'.chain plainClaim ∧
    Accepts chainless w'.ctx w'.chain openClaim := by
  have h : ((Runs.run (step chainless) w twoContracts).map fun w' =>
      (w'.ctx.chainID, (w'.chain.contracts.lookup 2).map Contract.isSubscription,
        (deliver chainless w'.ctx (.claimContractIncome plainClaim) w'.chain).isSome,
        (deliver chainless w'.ctx (.claimContractIncome openClaim) w'.chain).isSome)) =
      some (w.ctx.chainID, some false, true, true) := by
    rcases hw with rfl | rfl
    · decide +kernel
    · decide +kernel
  obtain ⟨w', hw', h₁⟩ := Option.map_eq_some_iff.mp h
  simp only [Prod.mk.injEq] at h₁
  obtain ⟨hchain, hsub, hplain, hopen⟩ := h₁
  refine ⟨w', hw', hchain, ?_, ?_, ?_⟩
  · intro c hc
    rw [hc, Option.map_some, Option.some.injEq] at hsub
    rw [hsub]
    rfl
  · obtain ⟨t, ht⟩ := Option.isSome_iff_exists.mp hplain
    exact ⟨t, (deliver_some ht).2⟩
  · obtain ⟨t, ht⟩ := Option.isSome_iff_exists.mp hopen
    exact ⟨t, (deliver_some ht).2⟩

end Sample

/-- **Two chains take one signature.**  The client's signature without a chain id
is taken on both chains for contract 2, and on both for the open subscription,
although the signatures are ideal. -/
theorem signature_taken_on_two_chains : Ideal Sample.chainless ∧ ∃ w w',
    Runs.run (step Sample.chainless) Sample.genesis Sample.twoContracts = some w ∧
    Runs.run (step Sample.chainless) Sample.otherChain Sample.twoContracts = some w' ∧
    w.ctx.chainID = "arkeo" ∧ w'.ctx.chainID = "otherchain" ∧
    (Accepts Sample.chainless w.ctx w.chain Sample.plainClaim ∧
      Accepts Sample.chainless w'.ctx w'.chain Sample.plainClaim) ∧
    Accepts Sample.chainless w.ctx w.chain Sample.openClaim ∧
    Accepts Sample.chainless w'.ctx w'.chain Sample.openClaim := by
  obtain ⟨w, hw, hchain, -, hplain, hopen⟩ := Sample.twoContracts_run (.inl rfl)
  obtain ⟨w', hw', hchain', -, hplain', hopen'⟩ := Sample.twoContracts_run (.inr rfl)
  exact ⟨Sample.chainless_ideal, w, w', hw, hw', hchain, hchain', ⟨hplain, hplain'⟩, hopen, hopen'⟩

/-- The signature that both chains take for contract 2 is one without a chain id. -/
theorem plain_claim_without_chain : ∃ (w w' : World) (pk : Bytes),
    Accepts Sample.chainless w.ctx w.chain Sample.plainClaim ∧
    Accepts Sample.chainless w'.ctx w'.chain Sample.plainClaim ∧
    w.ctx.chainID ≠ w'.ctx.chainID ∧ SignedWithoutChain Sample.chainless pk Sample.plainClaim := by
  obtain ⟨w, -, hchain, hask, hplain, -⟩ := Sample.twoContracts_run (.inl rfl)
  obtain ⟨w', -, hchain', hask', hplain', -⟩ := Sample.twoContracts_run (.inr rfl)
  have hne : w.ctx.chainID ≠ w'.ctx.chainID := by
    rw [hchain, hchain']
    decide
  obtain ⟨-, -, c, c', pk, -, -, -, -, hsigned⟩ := taken_on_two_chains Sample.chainless_ideal
    Sample.chainless_lowS Sample.chainless_digests (by rw [hchain]; decide) hne rfl hask hask' hplain
    hplain'
  exact ⟨w, w', pk, hplain, hplain', hne, hsigned⟩

end Arkeo
