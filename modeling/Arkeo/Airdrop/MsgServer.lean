import Arkeo.Runs
import Arkeo.Airdrop.Keeper

/-! # The messages and hooks of the claim module

A message of the claim module runs in a context of its own, which is dropped when
the handler fails.  The hooks after a vote and after a delegation run in the context
of the other module; their errors are logged and passed over, with what they wrote
kept.  A panic drops the whole transaction.
-/
namespace Arkeo.Airdrop
open Exec

section
variable (env : Env) (ctx : Context)

/-- The test for a record without claimable amounts; an amount that is nil panics. -/
def nothingLeft (r : ClaimRecord) : Keeper Bool :=
  if r.isEmpty then pure true
  else ofOption r.amountClaim.isZero .panic >>= fun noClaim =>
    if !noClaim then pure false
    else ofOption r.amountVote.isZero .panic >>= fun noVote =>
      if !noVote then pure false else ofOption r.amountDelegate.isZero .panic

/-! ## ClaimArkeo -/

/-- The response of `ClaimArkeo`: the address and the amount. -/
def claimArkeo (creator : String) : Keeper (String × Int64) := do
  let r ← reading (getClaimRecord creator .arkeo)
  failIf r.isEmpty (.err .noClaimableAmount)
  failIf (← ofOption r.amountClaim.isZero .panic) (.err .noClaimableAmount)
  let _ ← claimCoinsForAction env ctx creator .claim
  let amount ← ofOption r.amountClaim.int64 .panic
  pure (creator, amount)

/-! ## ClaimEth -/

/-- One amount of a merged record. -/
def mergeAmounts (c d : Coin) : Option Coin := if c.isNil || !c.isValid then some d else c.add d

def mergeClaimRecords (r q : ClaimRecord) : Except (Fault Error) ClaimRecord :=
  if r.isEmpty then .ok q
  else if q.isEmpty then .ok r
  else if r.address ≠ q.address then .error (.err .differentAddresses)
  else if r.chain ≠ q.chain then .error (.err .differentChains)
  else
    match mergeAmounts r.amountClaim q.amountClaim,
        mergeAmounts r.amountDelegate q.amountDelegate,
        mergeAmounts r.amountVote q.amountVote with
    | some claim, some delegate, some vote =>
        .ok { r with amountClaim := claim, amountDelegate := delegate, amountVote := vote }
    | _, _, _ => .error .panic

/-- `getInitialClaimableAmountTotal`; `none` where it panics. -/
def getInitialClaimableAmountTotal (r : ClaimRecord) : Option Coin := do
  let zero ← newCoin r.amountClaim.denom 0
  let total ← zero.add r.amountClaim
  let total ← total.add r.amountDelegate
  total.add r.amountVote

/-- The claim amount of a record in 64 bits, zero if there is none. -/
def claimAmountOf (r : ClaimRecord) : Keeper Int64 :=
  if r.isEmpty then pure 0
  else ofOption r.amountClaim.isZero .panic >>= fun zero =>
    if zero then pure 0 else ofOption r.amountClaim.int64 .panic

structure ClaimEthResponse where
  ethAddress : String
  arkeoAddress : String
  ethClaimAmount : Int64
  arkeoClaimAmount : Int64
  deriving DecidableEq, Repr

/-- The amounts of the Ethereum record go to the creator's record, whose claim amount
is then paid. -/
def claimEth (creator ethAddress signature : String) : Keeper ClaimEthResponse := do
  let ethClaim ← reading (getClaimRecord ethAddress .ethereum)
  failIf (← nothingLeft ethClaim) (.err .noClaimableAmount)
  let total ← ofOption (getInitialClaimableAmountTotal ethClaim) .panic
  let ethClaimAmount ← ofOption ethClaim.amountClaim.int64 .panic
  failIf (!env.isValidClaimSignature ethAddress creator (toString total.value) signature)
    (.err .invalidSignature)
  let arkeoClaim : ClaimRecord :=
    { address := creator, chain := .arkeo, amountClaim := ethClaim.amountClaim
      amountVote := ethClaim.amountVote, amountDelegate := ethClaim.amountDelegate }
  setClaimRecord env (ethClaim.setAllAmounts {})
  let existing ← reading (getClaimRecord creator .arkeo)
  let existingAmount ← claimAmountOf existing
  let merged ← fromExcept (mergeClaimRecords existing arkeoClaim)
  setClaimRecord env merged
  let _ ← claimCoinsForAction env ctx creator .claim
  pure
    { ethAddress := ethAddress, arkeoAddress := creator, ethClaimAmount := ethClaimAmount
      arkeoClaimAmount := existingAmount }

/-! ## ClaimThorchain -/

/-- The only account that may send `MsgClaimThorchain`. -/
def thorchainClaimServer : String := "arkeo1darsrv7x7kr26geefyn4cljn3m9y5yg5c84xgv"

/-- The amount of a coin in 64 bits, zero for nil; `none` where it panics. -/
def int64OrZero (c : Coin) : Option Int64 := if c.isNil then some 0 else c.int64

/-- The sum of two amounts, taken in 64 bits; `none` where it panics. -/
def combine (c d : Coin) : Option Coin := do
  let m ← int64OrZero c
  let n ← int64OrZero d
  newCoin defaultClaimDenom (m + n).toInt

/-- The amounts of one Arkeo record go to another; the addresses are compared as they
are spelled. -/
def claimThorchain (creator fromAddress toAddress : String) : Keeper (String × String) := do
  failIf (fromAddress = toAddress) (.err .invalidAddress)
  failIf (creator ≠ thorchainClaimServer) (.err .invalidCreator)
  let src ← reading (getClaimRecord fromAddress .arkeo)
  failIf (← nothingLeft src) (.err .noClaimableAmount)
  let dst ← reading (getClaimRecord toAddress .arkeo)
  let claim ← ofOption (combine dst.amountClaim src.amountClaim) .panic
  let vote ← ofOption (combine dst.amountVote src.amountVote) .panic
  let delegate ← ofOption (combine dst.amountDelegate src.amountDelegate) .panic
  let zero : Coin := ⟨defaultClaimDenom, some 0⟩
  setClaimRecord env
    { chain := .arkeo, address := fromAddress, amountClaim := zero, amountVote := zero
      amountDelegate := zero }
  setClaimRecord env
    { chain := .arkeo, address := toAddress, amountClaim := claim, amountVote := vote
      amountDelegate := delegate, isTransferable := dst.isTransferable }
  pure (fromAddress, toAddress)

/-! ## TransferClaim -/

/-- The amounts of the creator's record go to another, whose claim amount is then
paid. -/
def transferClaim (creator toAddress : String) : Keeper Unit := do
  let original ← reading (getClaimRecord creator .arkeo)
  failIf (← nothingLeft original) (.err .noClaimableAmount)
  failIf (!original.isTransferable) (.err .claimRecordNotTransferrable)
  let arkeoClaim : ClaimRecord :=
    { address := toAddress, chain := .arkeo, amountClaim := original.amountClaim
      amountVote := original.amountVote, amountDelegate := original.amountDelegate }
  setClaimRecord env (original.setAllAmounts {})
  let existing ← reading (getClaimRecord toAddress .arkeo)
  let merged ← fromExcept (mergeClaimRecords existing arkeoClaim)
  setClaimRecord env merged
  let _ ← claimCoinsForAction env ctx toAddress .claim

/-! ## Hooks -/

/-- The body of the hooks `AfterProposalVote` and `AfterDelegationModified`. -/
def claimLogged (address : String) (action : Action) : Keeper Unit :=
  logged (claimCoinsForAction env ctx address action >>= fun _ => pure ())

def afterProposalVote (voter : String) : Keeper Unit := claimLogged env ctx voter .vote

def afterDelegationModified (delegator : String) : Keeper Unit :=
  claimLogged env ctx delegator .delegate

end

end Arkeo.Airdrop
