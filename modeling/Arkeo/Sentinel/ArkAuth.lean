import Arkeo.Runs
import Arkeo.Sentinel.Auth
import Arkeo.World

/-! # The header a sentinel sends

A sentinel can be a client of another one: `ArkeoAuthManager` counts a nonce up, keeps it in
a store of its own, and sends what `GenerateArkAuthString` prints.  The printer joins the
message and the signature with a colon, and the message ends with one already, where the
chain id used to be: the header has four fields, `<contract>:<nonce>::<signature>`.
`parseArkAuth` takes the second of four fields for a public key, so it refuses every header
(`arkAuth_disagrees`).
-/
namespace Arkeo.Sentinel
open Text

variable {cr : Crypto}

/-! ## The printer -/

/-- `GenerateMessageToSign`; the chain id is not printed. -/
def messageToSign (contractId : ℕ) (nonce : Int64) (_chainId : String) : String :=
  toString contractId ++ ":" ++ toString nonce.toInt ++ ":"

def generateArkAuthString (contractId : ℕ) (nonce : Int64) (signature : Bytes) (chainId : String) :
    String :=
  messageToSign contractId nonce chainId ++ ":" ++ hexEncode signature

/-- The text of a key begins with a letter: bech32 wants the prefix of the chain. -/
def AlphaKeys (cr : Crypto) : Prop :=
  ∀ text key, cr.getPubKeyFromBech32 text = some key →
    ∃ c cs, text.toList = c :: cs ∧ c.isAlpha = true

/-- No number is a key. -/
theorem AlphaKeys.number (h : AlphaKeys cr) (i : ℤ) : cr.getPubKeyFromBech32 i.repr = none := by
  cases hkey : cr.getPubKeyFromBech32 i.repr with
  | none => rfl
  | some key =>
    obtain ⟨c, cs, hlist, halpha⟩ := h _ key hkey
    have hmem : c ∈ i.repr.toList := by
      rw [hlist]
      exact List.mem_cons_self
    have hdigit : c.isDigit = false := by
      rw [Char.isAlpha, Bool.or_eq_true, Char.isUpper, Char.isLower] at halpha
      rw [← Bool.not_eq_true, Char.isDigit_iff_toNat]
      have hval : c.toNat = c.val.toNat := rfl
      rcases halpha with h | h <;> simp only [Bool.and_eq_true, decide_eq_true_eq, ge_iff_le,
        UInt32.le_iff_toNat_le] at h <;> rintro ⟨-, hhi⟩ <;> simp at h hhi <;> omega
    have hminus : c ≠ '-' := by
      rintro rfl
      cases halpha
    exact absurd hmem (notMem_intRepr hdigit hminus i)

/-- The four fields of what is printed. -/
theorem splitN_generated (contractId : ℕ) (nonce : Int64) (signature : Bytes) (chainId : String) :
    splitN (generateArkAuthString contractId nonce signature chainId) ':' 4 =
      [contractId.repr, nonce.toInt.repr, "", hexEncode signature] := by
  have hlist : (generateArkAuthString contractId nonce signature chainId).toList =
      contractId.repr.toList ++ ':' :: (nonce.toInt.repr.toList ++
        ':' :: ([] ++ ':' :: (hexEncode signature).toList)) := by
    simp only [generateArkAuthString, messageToSign, String.toList_append, List.append_assoc]
    rfl
  have hnat : ':' ∉ contractId.repr.toList := notMem_natRepr rfl _
  have hint : ':' ∉ nonce.toInt.repr.toList := notMem_intRepr rfl (by decide) _
  rw [splitN, hlist, splitAux_field hnat, splitAux_field hint, splitAux_field List.not_mem_nil,
    splitAux_last]
  simp only [List.reverse_nil, List.nil_append, List.map_cons, List.map_nil, String.ofList_toList,
    String.ofList_nil]

theorem parseArkAuth_generated (hkeys : AlphaKeys cr) (contractId : ℕ) (nonce : Int64)
    (signature : Bytes) (chainId configChainId : String) :
    parseArkAuth cr (generateArkAuthString contractId nonce signature chainId) configChainId =
      none := by
  unfold parseArkAuth
  rw [splitN_generated]
  -- the nonce stands where the key is expected
  change (read (parseUint contractId.repr)).bind
    (fun id => (cr.getPubKeyFromBech32 nonce.toInt.repr).bind _) = none
  rw [hkeys.number]
  cases read (parseUint contractId.repr) <;> rfl

/-! ## The sender -/

/-- The nonces by contract; one that is missing is zero. -/
abbrev NonceStore := AList fun _ : ℕ => Int64

def NonceStore.get (store : NonceStore) (contractId : ℕ) : Int64 :=
  (store.lookup contractId).getD 0

/-- What the configuration says about the credentials. -/
structure AuthConfig where
  contractId : ℕ
  chainId : String
  mnemonic : String
  /-- The folder of the nonce store; without one the nonces are only in memory. -/
  nonceStore : String
  deriving DecidableEq, Repr

/-- `ArkeoAuthManager`; signing may fail. -/
structure AuthManager where
  contractId : ℕ
  chainId : String
  sign : Bytes → Option Bytes
  nonce : Int64

/-- `NewArkeoAuthManager`, given the key that a mnemonic derives: nothing when the
credentials are not configured or no key can be derived. -/
def newArkeoAuthManager (derive : String → Option (Bytes → Option Bytes)) (cfg : AuthConfig)
    (store : NonceStore) : Option AuthManager :=
  if cfg.contractId = 0 || cfg.chainId = "" || cfg.mnemonic = "" then none
  else (derive cfg.mnemonic).map fun sign =>
    { contractId := cfg.contractId, chainId := cfg.chainId, sign := sign
      nonce := store.get cfg.contractId }

/-- `GenerateAuthHeader`: the header, if the message could be signed. -/
def AuthManager.generateAuthHeader (am : AuthManager) (store : NonceStore) :
    Option String × AuthManager × NonceStore :=
  let am := { am with nonce := am.nonce + 1 }
  let store := store.insert am.contractId am.nonce
  let message := messageToSign am.contractId am.nonce am.chainId
  let header := (am.sign message.toUTF8.data.toList).map fun sig =>
    generateArkAuthString am.contractId am.nonce sig am.chainId
  (header, am, store)

/-- The sender, its store, and the headers it has sent. -/
structure Sender where
  manager : Option AuthManager
  store : NonceStore
  sent : List String

inductive SenderAction where
  /-- A request is forwarded. -/
  | request
  | restart
  deriving DecidableEq, Repr

variable (derive : String → Option (Bytes → Option Bytes)) (cfg : AuthConfig)

def startSender (store : NonceStore) (sent : List String) : Sender where
  manager := newArkeoAuthManager derive cfg store
  store := store
  sent := sent

def senderStep (s : Sender) : SenderAction → Option Sender
  | .request =>
      match s.manager with
      | none => some s
      | some am =>
          match am.generateAuthHeader s.store with
          | (header, am, store) =>
              some { manager := some am, store := store, sent := s.sent ++ header.toList }
  | .restart => some (startSender derive cfg (if cfg.nonceStore = "" then ∅ else s.store) s.sent)

variable {derive cfg} {s s' : Sender} {store : NonceStore} {actions : List SenderAction}

/-- A header that was sent is one that was printed. -/
def Sender.Printed (s : Sender) : Prop :=
  ∀ header ∈ s.sent, ∃ contractId nonce signature chainId,
    header = generateArkAuthString contractId nonce signature chainId

theorem Sender.Printed.step {act : SenderAction} (h : s.Printed)
    (hstep : senderStep derive cfg s act = some s') : s'.Printed := by
  cases act with
  | restart =>
    obtain rfl := Option.some.inj hstep
    exact h
  | request =>
    cases hm : s.manager with
    | none =>
      simp only [senderStep, hm] at hstep
      obtain rfl := Option.some.inj hstep
      exact h
    | some am =>
      simp only [senderStep, hm] at hstep
      obtain rfl := Option.some.inj hstep
      intro header hheader
      rcases List.mem_append.mp hheader with hsent | hnew
      · exact h header hsent
      · obtain ⟨sig, -, rfl⟩ := Option.map_eq_some_iff.mp (Option.mem_toList.mp hnew)
        exact ⟨_, _, _, _, rfl⟩

/-! ## The two together -/

/-- What is printed is read back. -/
def RoundTrips (cr : Crypto) (contractId : ℕ) (nonce : Int64) (signature : Bytes)
    (chainId configChainId : String) : Prop :=
  ∃ aa, parseArkAuth cr (generateArkAuthString contractId nonce signature chainId) configChainId =
    some aa ∧ aa.contractId = contractId ∧ aa.nonce = nonce ∧ aa.signature = signature

/-- The headers are read as requests for the contract with rising nonces. -/
def ReadIncreasing (cr : Crypto) (contractId : ℕ) (configChainId : String) (headers : List String) :
    Prop :=
  ∃ auths : List ArkAuth, headers.map (parseArkAuth cr · configChainId) = auths.map some ∧
    (∀ aa ∈ auths, aa.contractId = contractId) ∧ (auths.map ArkAuth.nonce).Pairwise (· < ·)

/-- **The printer and the parser never agree.**  Nothing that is printed is read back, and
over a run the headers are read as they should be only if none was sent. -/
theorem arkAuth_disagrees (hkeys : AlphaKeys cr) :
    (∀ contractId nonce signature chainId configChainId,
      ¬RoundTrips cr contractId nonce signature chainId configChainId) ∧
    ∀ derive cfg store actions s configChainId,
      Runs.run (senderStep derive cfg) (startSender derive cfg store []) actions = some s →
        (ReadIncreasing cr cfg.contractId configChainId s.sent ↔ s.sent = []) := by
  constructor
  · rintro contractId nonce signature chainId configChainId ⟨aa, haa, -⟩
    rw [parseArkAuth_generated hkeys] at haa
    cases haa
  · intro derive cfg store actions s configChainId hrun
    have hprinted : s.Printed := by
      refine Runs.run_induct (P := Sender.Printed) ?_ ?_ hrun
      · exact fun _ _ _ h hstep => h.step hstep
      · exact fun header hheader => absurd hheader List.not_mem_nil
    constructor
    · rintro ⟨auths, hauths, -⟩
      cases hsent : s.sent with
      | nil => rfl
      | cons header headers =>
        obtain ⟨contractId, nonce, signature, chainId, hheader⟩ :=
          hprinted header (by rw [hsent]; exact List.mem_cons_self)
        rw [hsent, List.map_cons, hheader, parseArkAuth_generated hkeys] at hauths
        cases auths with
        | nil => cases hauths
        | cons aa auths => cases (List.cons.inj hauths).1
    · intro hsent
      rw [hsent]
      exact ⟨[], rfl, nofun, List.Pairwise.nil⟩

namespace Sample
open Arkeo.Sample (crypto signature)

theorem crypto_alphaKeys : AlphaKeys crypto := by
  intro text key h
  obtain ⟨i, hi, -⟩ := Option.map_eq_some_iff.mp h
  have htext : i.pubKey = text := by simpa using List.find?_some hi
  have hmem := List.mem_of_find?_eq_some hi
  rw [← htext]
  rcases List.mem_cons.mp hmem with rfl | hmem
  · exact ⟨'a', _, rfl, by decide⟩
  · obtain rfl := List.mem_singleton.mp hmem
    exact ⟨'a', _, rfl, by decide⟩

/-- A client of contract 2 that has sent two requests before. -/
def authConfig : AuthConfig where
  contractId := 2
  chainId := "arkeo"
  mnemonic := "abandon"
  nonceStore := "nonces"

def nonces : NonceStore := AList.insert 2 2 ∅

def clientKey (_mnemonic : String) : Option (Bytes → Option Bytes) := some fun _ => some signature

end Sample

/-- A run that sends two headers with a restart between them. -/
theorem two_headers_unread : ∃ s, Runs.run (senderStep Sample.clientKey Sample.authConfig)
      (startSender Sample.clientKey Sample.authConfig Sample.nonces []) [.request, .restart, .request] =
        some s ∧ s.sent.length = 2 ∧
    (ReadIncreasing Arkeo.Sample.crypto 2 "arkeo" s.sent ↔ s.sent = []) :=
  ⟨_, rfl, rfl, (arkAuth_disagrees Sample.crypto_alphaKeys).2 Sample.clientKey Sample.authConfig
    Sample.nonces [.request, .restart, .request] _ "arkeo" rfl⟩

/-- **The third request.**  It is printed as `2:3::` and the signature, and refused. -/
theorem third_request_refused :
    generateArkAuthString 2 3 Arkeo.Sample.signature "arkeo" =
      "2:3::" ++ hexEncode Arkeo.Sample.signature ∧
    parseArkAuth Arkeo.Sample.crypto
      (generateArkAuthString 2 3 Arkeo.Sample.signature "arkeo") "arkeo" = none ∧
    ¬RoundTrips Arkeo.Sample.crypto 2 3 Arkeo.Sample.signature "arkeo" "arkeo" := by
  have hnone : parseArkAuth Arkeo.Sample.crypto
      (generateArkAuthString 2 3 Arkeo.Sample.signature "arkeo") "arkeo" = none := by decide +kernel
  refine ⟨by decide +kernel, hnone, ?_⟩
  rintro ⟨aa, haa, -⟩
  rw [hnone] at haa
  cases haa

end Arkeo.Sentinel
