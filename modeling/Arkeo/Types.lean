import Arkeo.LetterCase
import Mathlib.Data.List.AList
import Mathlib.Data.Int.Basic

/-! # The records and messages of the arkeo module

The data model of `x/arkeo/types`: contracts and providers as they are stored,
the messages that act on them, the life-cycle predicates of a contract, and the
configuration constants.  Fields that are `int64` in the source are `Int64`
here, with its wrap-around; token amounts are unbounded integers whose 256-bit
limit is checked where the source computes with them.

An enumeration received over the wire may carry a number outside the declared
ones, so each enumeration has an `unknown` case.
-/
namespace Arkeo

/-- A public key as the source keeps it: the bytes of its bech32 string. -/
abbrev PubKey := String

/-- A byte string. -/
abbrev Bytes := List UInt8

/-- An amount of one denomination. -/
structure Coin where
  denom : String
  amount : ℤ
  deriving DecidableEq, Repr

inductive ContractType where
  | subscription
  | payAsYouGo
  | unknown (n : ℤ)
  deriving DecidableEq, Repr

inductive ContractAuthorization where
  | strict
  | openAuth
  | unknown (n : ℤ)
  deriving DecidableEq, Repr

inductive ProviderStatus where
  | offline
  | online
  | unknown (n : ℤ)
  deriving DecidableEq, Repr

/-- A stored contract; the default is the zero value `types.Contract{}`. -/
structure Contract where
  provider : PubKey := ""
  service : ℕ := 0
  client : PubKey := ""
  delegate : PubKey := ""
  type : ContractType := .subscription
  height : Int64 := 0
  duration : Int64 := 0
  rate : Coin := ⟨"", 0⟩
  deposit : ℤ := 0
  paid : ℤ := 0
  nonce : Int64 := 0
  settlementHeight : Int64 := 0
  id : ℕ := 0
  settlementDuration : Int64 := 0
  authorization : ContractAuthorization := .strict
  queriesPerMinute : Int64 := 0
  deriving DecidableEq, Repr

/-- A stored provider record. -/
structure Provider where
  pubKey : PubKey
  service : ℕ
  metadataUri : String := ""
  metadataNonce : ℕ := 0
  status : ProviderStatus := .offline
  minContractDuration : Int64 := 0
  maxContractDuration : Int64 := 0
  subscriptionRate : List Coin := []
  payAsYouGoRate : List Coin := []
  bond : ℤ := 0
  lastUpdate : Int64 := 0
  settlementDuration : Int64 := 0
  deriving DecidableEq, Repr

/-- A record of the service registry. -/
structure Service where
  id : ℕ
  name : String
  description : String := ""
  serviceType : String := ""
  deriving DecidableEq, Repr

/-- The contracts that the end blocker settles at one height. -/
structure ContractExpirationSet where
  height : Int64
  contractIds : List ℕ
  deriving DecidableEq, Repr

/-- The contracts of one user; `none` is the nil set of a user without any. -/
structure UserContractSet where
  user : PubKey
  contractSet : Option (List ℕ)
  deriving DecidableEq, Repr

/-! ## The life cycle of a contract -/

namespace Contract

def isEmpty (c : Contract) : Bool := c.height = 0

def getSpender (c : Contract) : PubKey := if c.delegate ≠ "" then c.delegate else c.client

def expiration (c : Contract) : Int64 := c.height + c.duration

def isPayAsYouGo (c : Contract) : Bool := c.type = .payAsYouGo

def isSubscription (c : Contract) : Bool := c.type = .subscription

def isOpenAuthorization (c : Contract) : Bool := c.authorization = .openAuth

/-- The end of the period in which a pay-as-you-go contract takes claims but no
calls; a subscription has none. -/
def settlementPeriodEnd (c : Contract) : Int64 :=
  if c.isPayAsYouGo then c.expiration + c.settlementDuration else c.expiration

def isOpen (c : Contract) (height : Int64) : Bool :=
  !c.isEmpty && !(c.expiration < height) &&
    !(0 < c.settlementHeight && c.settlementHeight < height)

def isExpired (c : Contract) (height : Int64) : Bool := !c.isOpen height

def isSettled (c : Contract) (height : Int64) : Bool :=
  !c.isOpen height && c.settlementPeriodEnd ≤ height

end Contract

/-! ## Messages -/

structure MsgOpenContract where
  creator : String
  provider : String
  service : String
  client : String
  delegate : String
  contractType : ContractType
  duration : Int64
  settlementDuration : Int64
  rate : Coin
  deposit : ℤ
  authorization : ContractAuthorization
  queriesPerMinute : Int64
  deriving DecidableEq, Repr

/-- `client` and `delegate` are byte fields that may be absent. -/
structure MsgCloseContract where
  creator : String
  contractId : ℕ
  client : Option PubKey
  delegate : Option PubKey
  deriving DecidableEq, Repr

structure MsgClaimContractIncome where
  creator : String
  contractId : ℕ
  nonce : Int64
  signature : Bytes
  deriving DecidableEq, Repr

structure MsgBondProvider where
  creator : String
  provider : String
  service : String
  bond : ℤ
  deriving DecidableEq, Repr

structure MsgModProvider where
  creator : String
  provider : PubKey
  service : String
  metadataUri : String
  metadataNonce : ℕ
  status : ProviderStatus
  minContractDuration : Int64
  maxContractDuration : Int64
  subscriptionRate : List Coin
  payAsYouGoRate : List Coin
  settlementDuration : Int64
  deriving DecidableEq, Repr

structure MsgRegisterService where
  creator : String
  id : ℕ
  name : String
  description : String
  serviceType : String
  deriving DecidableEq, Repr

structure MsgUpdateService where
  creator : String
  id : ℕ
  name : String
  description : String
  serviceType : String
  deriving DecidableEq, Repr

structure MsgRemoveService where
  creator : String
  name : String
  deriving DecidableEq, Repr

namespace MsgOpenContract

/-- The key the contract is spent with: the delegate, or the client when no
delegate is named. -/
def spender (msg : MsgOpenContract) : String :=
  if msg.delegate = "" then msg.client else msg.delegate

end MsgOpenContract

/-! ## Code outside the repository -/

/-- The bech32 codec, the signature scheme and the hash functions of the
libraries the chain is built on. -/
structure Crypto where
  /-- `legacybech32.UnmarshalPubKey(AccPK, _)`: the key a bech32 string encodes. -/
  getPubKeyFromBech32 : String → Option Bytes
  /-- `legacybech32.MarshalPubKey(AccPK, _)`. -/
  bech32ifyPubKey : Bytes → String
  /-- `sdk.AccAddressFromBech32`: the address a bech32 string encodes. -/
  accAddressFromBech32 : String → Option Bytes
  /-- `pk.Address()`. -/
  address : Bytes → Bytes
  /-- `pk.VerifySignature(msg, sig)`. -/
  verifySignature : Bytes → Bytes → Bytes → Bool
  sha256 : Bytes → Bytes
  keccak256 : Bytes → Bytes

namespace Crypto
variable (cr : Crypto)

/-- `common.NewPubKey`: the empty string is the empty key, anything else has to
be a bech32 key. -/
def newPubKey (key : String) : Option PubKey :=
  if key = "" then some ""
  else (cr.getPubKeyFromBech32 key).map fun _ => key

/-- `PubKey.GetMyAddress`: the key's address. -/
def getMyAddress (key : PubKey) : Option Bytes :=
  (cr.getPubKeyFromBech32 key).map cr.address

end Crypto

/-! ## Strings and coins -/

/-- `strings.ToUpper`. -/
def toUpper (s : String) : String := String.ofList (s.toList.map LetterCase.toUpper)

/-- `strings.ToLower`. -/
def toLower (s : String) : String := String.ofList (s.toList.map LetterCase.toLower)

/-- `unicode.IsSpace`. -/
def isSpace (c : Char) : Bool :=
  let n := c.toNat
  (9 ≤ n && n ≤ 13) || n = 0x20 || n = 0x85 || n = 0xa0 || n = 0x1680 ||
    (0x2000 ≤ n && n ≤ 0x200a) || n = 0x2028 || n = 0x2029 || n = 0x202f || n = 0x205f ||
    n = 0x3000

/-- `strings.TrimSpace(s) == ""`. -/
def isBlank (s : String) : Bool := s.toList.all isSpace

/-- `sdk.ValidateDenom`: a letter, then 2 to 127 letters, digits or `/:._-`. -/
def validateDenom (denom : String) : Bool :=
  match denom.toList with
  | [] => false
  | c :: cs => c.isAlpha && 2 ≤ cs.length && cs.length ≤ 127 &&
      cs.all fun d => d.isAlphanum || d = '/' || d = ':' || d = '.' || d = '_' || d = '-'

namespace Coin

/-- `Coin.Validate`. -/
def valid (c : Coin) : Bool := validateDenom c.denom && 0 ≤ c.amount

end Coin

/-- `sdk.NewCoins`: zero coins are dropped, and what is left must have valid
denominations, positive amounts and no denomination twice; `none` where it
panics.  The order it sorts into is never read. -/
def newCoins (coins : List Coin) : Option (List Coin) :=
  let cs := coins.filter fun c => c.amount ≠ 0
  if cs.all (fun c => validateDenom c.denom && 0 < c.amount) ∧ (cs.map Coin.denom).Nodup then
    some cs
  else none

/-- `Coins.AmountOf`; `none` where it panics on the denomination. -/
def amountOf (coins : List Coin) (denom : String) : Option ℤ :=
  if validateDenom denom then some (((coins.find? fun c => c.denom = denom).map Coin.amount).getD 0)
  else none

/-! ## Configuration -/

inductive ConfigName where
  | handlerBondProvider
  | handlerModProvider
  | handlerOpenContract
  | handlerCloseContract
  | handlerClaimContractIncome
  | handlerSetVersion
  | maxContractLength
  | maxSupply
  | openContractCost
  | minProviderBond
  | reserveTax
  deriving DecidableEq, Repr

/-- `common.Tokens`. -/
def tokens (i : Int64) : Int64 := i * 100000000

/-- `configs.NewConfigValue010`, the values of every version. -/
def fetchConfig : ConfigName → Int64
  | .handlerBondProvider => 0
  | .handlerModProvider => 0
  | .handlerOpenContract => 0
  | .handlerCloseContract => 0
  | .handlerClaimContractIncome => 0
  | .handlerSetVersion => 0
  | .maxContractLength => 5256000
  | .maxSupply => tokens 121000000
  | .openContractCost => 20000000
  | .minProviderBond => tokens 1
  | .reserveTax => 1000

/-- `configs.MaxBasisPoints`. -/
def maxBasisPoints : Int64 := 10000

/-- `configs.Denom`. -/
def denom : String := "uarkeo"

end Arkeo
