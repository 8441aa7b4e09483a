import Arkeo.MsgServer
import Arkeo.Text

/-! # The sentinel's credentials

The sentinel is the proxy in front of a provider's services.  A request names a
contract and carries a signature in a header: `ArkAuth` for a query that is to be
paid, `ContractAuth` for a change of the contract's settings.  Here are the two
formats and the tests their signatures are put to.
-/
namespace Arkeo.Sentinel
open Text

structure ContractAuth where
  contractId : ℕ := 0
  timestamp : Int64 := 0
  signature : Bytes := []
  chainId : String := ""
  deriving DecidableEq, Repr

structure ArkAuth where
  contractId : ℕ := 0
  spender : PubKey := ""
  nonce : Int64 := 0
  signature : Bytes := []
  chainId : String := ""
  deriving DecidableEq, Repr

/-- `<contract>:<timestamp>:<signature>`, of which the later fields may be missing.
The chain id is not set. -/
def parseContractAuth (raw : String) : Option ContractAuth :=
  match splitN raw ':' 3 with
  | [id] => do
      let id ← read (parseUint id)
      some { contractId := id }
  | [id, time] => do
      let id ← read (parseUint id)
      let time ← read (parseInt time)
      some { contractId := id, timestamp := time }
  | [id, time, sig] => do
      let id ← read (parseUint id)
      let time ← read (parseInt time)
      let sig ← hexDecode sig
      some { contractId := id, timestamp := time, signature := sig }
  | _ => some {}

/-- `<contract>`, `<contract>:<nonce>:<signature>` or
`<contract>:<key>:<nonce>:<signature>`. -/
def parseArkAuth (cr : Crypto) (raw configChainId : String) : Option ArkAuth :=
  match splitN raw ':' 4 with
  | [id] => do
      let id ← read (parseUint id)
      some { contractId := id, chainId := configChainId }
  | [id, nonce, sig] => do
      let id ← read (parseUint id)
      let nonce ← read (parseInt nonce)
      let sig ← hexDecode sig
      some { contractId := id, nonce := nonce, signature := sig, chainId := configChainId }
  | [id, key, nonce, sig] => do
      let id ← read (parseUint id)
      let key ← cr.getPubKeyFromBech32 key
      let nonce ← read (parseInt nonce)
      let sig ← hexDecode sig
      some
        { contractId := id, spender := cr.bech32ifyPubKey key, nonce := nonce, signature := sig
          chainId := configChainId }
  | _ => none

/-- `ArkAuth.Validate`: the income claim the request would become passes its
stateless check. -/
def ArkAuth.validate (cr : Crypto) (aa : ArkAuth) (provider : PubKey) : Bool :=
  (cr.getMyAddress provider).isSome && decide (aa.signature.length ≤ 100) && decide (0 < aa.nonce)

inductive ContractAuthError where
  | zeroContractId
  | oldTimestamp (lastTimestamp : Int64)
  | badKey
  | invalidSignature
  deriving DecidableEq, Repr

/-- `ContractAuth.Validate`. -/
def ContractAuth.validate (cr : Crypto) (auth : ContractAuth) (lastTimestamp : Int64)
    (client : PubKey) : Except ContractAuthError Unit :=
  if auth.contractId = 0 then .error .zeroContractId
  else if auth.timestamp ≤ lastTimestamp then .error (.oldTimestamp lastTimestamp)
  else match cr.getPubKeyFromBech32 client with
    | none => .error .badKey
    | some pk =>
        let msg := getBytesToSign auth.contractId auth.timestamp auth.chainId
        if cr.verifySignature pk msg auth.signature then .ok () else .error .invalidSignature

/-- `GenerateMessageToSign`: the chain id is not part of the message. -/
def generateMessageToSign (contractId : ℕ) (nonce : Int64) : Bytes :=
  getBytesToSign contractId nonce ""

/-- What a wallet hashes for `personal_sign`. -/
def personalMessage (pre : Bytes) : Bytes :=
  ("\x19Ethereum Signed Message:\n" ++ toString pre.length).toUTF8.data.toList ++ pre

/-- The test of a query's signature: over the hashed preimage, the preimage as it
is, and its two Ethereum digests. -/
def verifyRequest (cr : Crypto) (pk : Bytes) (contractId : ℕ) (nonce : Int64) (sig : Bytes) : Bool :=
  let pre := generateMessageToSign contractId nonce
  cr.verifySignature pk (cr.sha256 pre) sig || cr.verifySignature pk pre sig ||
    cr.verifySignature pk (cr.keccak256 pre) sig ||
    cr.verifySignature pk (cr.keccak256 (personalMessage pre)) sig

end Arkeo.Sentinel
