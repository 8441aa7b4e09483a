import Arkeo.Exec
import Arkeo.Types
import Arkeo.Text

/-! # The records of the claim module

The data model of `x/claim/types`.  A coin of the source whose amount was never set
has the amount nil, and operations on it panic; written to the store and read back,
it has the amount zero and no denomination.  So a claimed action has two spellings,
and a third in records that were emptied with a zero coin of the claim
denomination.
-/
namespace Arkeo.Airdrop
open Exec Text

/-- `sdk.Coin`; the amount of the zero value is nil. -/
structure Coin where
  denom : String := ""
  amount : Option ℤ := none
  deriving DecidableEq, Repr

inductive Action where
  | claim
  | vote
  | delegate
  deriving DecidableEq, Repr

inductive Chain where
  | arkeo
  | ethereum
  deriving DecidableEq, Repr

/-- The default is the zero value `types.ClaimRecord{}`. -/
structure ClaimRecord where
  chain : Chain := .arkeo
  address : String := ""
  amountClaim : Coin := {}
  amountVote : Coin := {}
  amountDelegate : Coin := {}
  isTransferable : Bool := false
  deriving DecidableEq, Repr

/-- Times are in nanoseconds; the durations have no sign restriction. -/
structure Params where
  airdropStartTime : ℤ
  durationUntilDecay : Int64
  durationOfDecay : Int64
  claimDenom : String := "uarkeo"
  deriving DecidableEq, Repr

/-- `types.DefaultClaimDenom`. -/
def defaultClaimDenom : String := "uarkeo"

inductive Error where
  | airdropEnded
  | noClaimableAmount
  | invalidSignature
  | claimRecordNotTransferrable
  | invalidCreator
  | invalidAddress
  | differentAddresses
  | differentChains
  | unauthorized
  | insufficientFunds
  deriving DecidableEq, Repr

/-! ## Coins -/

namespace Coin

def isNil (c : Coin) : Bool := c.amount.isNone

/-- `Coin.IsZero`; `none` where it panics. -/
def isZero (c : Coin) : Option Bool := c.amount.map fun n => decide (n = 0)

/-- `Coin.IsValid`. -/
def isValid (c : Coin) : Bool :=
  validateDenom c.denom && match c.amount with
    | some n => decide (0 ≤ n)
    | none => false

/-- `Int.Int64()`; `none` where it panics. -/
def int64 (c : Coin) : Option Int64 :=
  c.amount.bind fun n => if -2 ^ 63 ≤ n ∧ n < 2 ^ 63 then some (Int64.ofInt n) else none

/-- `Coin.Add`; `none` where it panics: other denominations, nil amounts, more than 256
bits. -/
def add (c d : Coin) : Option Coin :=
  if c.denom ≠ d.denom then none
  else c.amount.bind fun m => d.amount.bind fun n =>
    if (m + n).natAbs < 2 ^ 256 then some ⟨c.denom, some (m + n)⟩ else none

/-- What is read back after the coin was written to the store. -/
def stored (c : Coin) : Coin := { c with amount := some (c.amount.getD 0) }

/-- The worth of a coin. -/
def value (c : Coin) : ℤ := c.amount.getD 0

end Coin

/-- `sdk.NewCoin`; `none` where it panics. -/
def newCoin (denom : String) (amount : ℤ) : Option Coin :=
  if Coin.isValid ⟨denom, some amount⟩ then some ⟨denom, some amount⟩ else none

/-! ## Records -/

namespace ClaimRecord

/-- The coin is worth something. -/
def counts (c : Coin) : Bool := c.isValid && decide (c.value ≠ 0)

/-- `ClaimRecord.IsEmpty`. -/
def isEmpty (r : ClaimRecord) : Bool :=
  decide (r.address = "") ||
    !(counts r.amountClaim || counts r.amountVote || counts r.amountDelegate)

/-- `getInitialClaimableAmount`. -/
def amount (r : ClaimRecord) : Action → Coin
  | .claim => r.amountClaim
  | .vote => r.amountVote
  | .delegate => r.amountDelegate

/-- `setClaimableAmountForAction`. -/
def setAmount (r : ClaimRecord) (a : Action) (c : Coin) : ClaimRecord :=
  match a with
  | .claim => { r with amountClaim := c }
  | .vote => { r with amountVote := c }
  | .delegate => { r with amountDelegate := c }

/-- `setClaimableAmountForAllActions`. -/
def setAllAmounts (r : ClaimRecord) (c : Coin) : ClaimRecord :=
  { r with amountClaim := c, amountVote := c, amountDelegate := c }

/-- What is read back after the record was written to the store. -/
def stored (r : ClaimRecord) : ClaimRecord :=
  { r with
    amountClaim := r.amountClaim.stored
    amountVote := r.amountVote.stored
    amountDelegate := r.amountDelegate.stored }

end ClaimRecord

/-! ## Addresses -/

/-- Cuts off a leading `0x` or `0X`. -/
def strip0x (s : String) : String :=
  match s.toList with
  | '0' :: 'x' :: cs => String.ofList cs
  | '0' :: 'X' :: cs => String.ofList cs
  | _ => s

/-- `common.IsHexAddress`. -/
def isValidEthAddress (s : String) : Bool :=
  (strip0x s).length = 40 && (strip0x s).toList.all fun c => (hexValue? c).isSome

/-- The `hexDecode` of the claim module: an odd number of digits is padded. -/
def hexDecodePadded (s : String) : Option Bytes :=
  let s := strip0x s
  hexDecode (if s.length % 2 = 1 then "0" ++ s else s)

/-- `common.HexToAddress`: the last 20 bytes, padded on the left. -/
def hexToAddress (s : String) : Bytes :=
  let bs := (hexDecodePadded s).getD []
  List.replicate (20 - bs.length) 0 ++ bs.drop (bs.length - 20)

/-- What the module takes from outside: bech32 addresses, the accounts that the bank
does not send to, and Ethereum signatures. -/
structure Env where
  /-- `sdk.AccAddressFromBech32`. -/
  accAddressFromBech32 : String → Option Bytes
  blockedAddr : Bytes → Bool
  /-- `crypto.Keccak256Hash` of the typed data of a claim: Ethereum address, Arkeo
  address, amount. -/
  claimHash : Bytes → String → String → Option Bytes
  /-- The address of the key that `crypto.Ecrecover` recovers from a hash and a
  signature. -/
  recoverAddress : Bytes → Bytes → Option Bytes

/-- `types.IsValidAddress`. -/
def Env.isValidAddress (env : Env) (address : String) : Chain → Bool
  | .ethereum => isValidEthAddress address
  | .arkeo => (env.accAddressFromBech32 address).isSome

/-- The recovery id 27 or 28 is also taken as 0 or 1. -/
def normalizeRecoveryId (sig : Bytes) : Bytes :=
  sig.modify 64 fun v => if v = 27 || v = 28 then v - 27 else v

/-- `IsValidClaimSignature`. -/
def Env.isValidClaimSignature (env : Env) (ethAddress arkeoAddress amount signature : String) :
    Bool :=
  match env.claimHash (hexToAddress ethAddress) arkeoAddress amount, hexDecodePadded signature with
  | some hash, some sig =>
      sig.length = 65 &&
        env.recoverAddress hash (normalizeRecoveryId sig) = some (hexToAddress ethAddress)
  | _, _ => false

end Arkeo.Airdrop
