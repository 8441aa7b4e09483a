import Arkeo.Ledger
import Arkeo.LegacyDec
import Arkeo.Airdrop.Types

/-! # The keeper of the claim module

`x/claim/keeper`: claim records by chain and lower-case address, what a record is
worth for an action at a given time, and the payment for an action.

The bank sends what it has, to accounts that are not blocked, and a send that fails
moves nothing.  The store keeps a journal of the payments, which no function reads.
-/
namespace Arkeo.Airdrop
open Exec

/-- The accounts of the bank that the module deals with. -/
inductive Holder where
  | module
  | reserve
  | user (addr : Bytes)
  deriving DecidableEq, Repr

/-- The key of a record: its chain and its address in lower case. -/
abbrev Key := Chain × String

def keyOf (chain : Chain) (address : String) : Key := (chain, toLower address)

/-- A payment for an action, out of the record with a given key. -/
structure Payment where
  key : Key
  action : Action
  account : Bytes
  coin : Coin
  deriving DecidableEq, Repr

structure Store where
  records : AList (fun _ : Key => ClaimRecord) := ∅
  bank : Ledger Holder String := ∅
  /-- The mark under `MoveClaimTokensKey`. -/
  moved : Bool := false
  payments : List Payment := []

abbrev Keeper := EStateM (Fault Error) Store

/-- The parameters and the time of the block. -/
structure Context where
  params : Params
  blockTime : ℤ
  deriving DecidableEq, Repr

section
variable (env : Env)

/-! ## Records -/

/-- A record is written under its own key, once its address is valid. -/
def setClaimRecord (r : ClaimRecord) : Keeper Unit := do
  failIf (!env.isValidAddress r.address r.chain) (.err .invalidAddress)
  writing fun s => { s with records := s.records.insert (keyOf r.chain r.address) r.stored }

/-- A missing record is empty. -/
def getClaimRecord (address : String) (chain : Chain) (s : Store) : ClaimRecord :=
  (s.records.lookup (keyOf chain address)).getD { chain := chain }

/-! ## Amounts -/

/-- `t.Sub(u)`, at most the longest duration. -/
def timeSub (t u : ℤ) : Int64 := Int64.ofInt (max (-2 ^ 63) (min (2 ^ 63 - 1) (t - u)))

/-- What is left of an amount after some of the decay. -/
def decayed (initial : Coin) (decayTime durationOfDecay : Int64) : Option Coin := do
  let decayPercent ← LegacyDec.quoInt64 (LegacyDec.ofInt decayTime.toInt) durationOfDecay
  let claimablePercent ← LegacyDec.sub (LegacyDec.ofInt 1) decayPercent
  let tenThousandths ← LegacyDec.mul claimablePercent (LegacyDec.ofInt 10000)
  let amount ← initial.amount
  let product := amount * LegacyDec.roundInt tenThousandths
  if product.natAbs < 2 ^ 256 then newCoin initial.denom (product.tdiv 10000) else none

/-- What a record is worth for an action: nothing before the airdrop starts, all of
the amount at first, then less and less of it. -/
def claimableAmount (ctx : Context) (r : ClaimRecord) (action : Action) :
    Except (Fault Error) Coin :=
  let p := ctx.params
  let initial := r.amount action
  if r.isEmpty || ctx.blockTime < p.airdropStartTime || initial.isNil || initial.value = 0 then
    .ok {}
  else
    let elapsed := timeSub ctx.blockTime p.airdropStartTime
    if elapsed ≤ p.durationUntilDecay then .ok initial
    else if p.durationUntilDecay + p.durationOfDecay < elapsed then .error (.err .airdropEnded)
    else
      match decayed initial (elapsed - p.durationUntilDecay) p.durationOfDecay with
      | some coin => .ok coin
      | none => .error .panic

def getClaimableAmountForAction (ctx : Context) (address : String) (action : Action)
    (chain : Chain) : Keeper Coin := do
  let r ← reading (getClaimRecord address chain)
  fromExcept (claimableAmount ctx r action)

/-- Every action, in the order of its number. -/
def allActions : List Action := [.claim, .vote, .delegate]

/-- `GetUserTotalClaimable`. -/
def getUserTotalClaimable (ctx : Context) (address : String) (chain : Chain) : Keeper Coin := do
  let r ← reading (getClaimRecord address chain)
  if r.isEmpty then pure {}
  else
    let zero ← ofOption (newCoin r.amountClaim.denom 0) .panic
    allActions.foldlM (fun total action => do
      let claimable ← getClaimableAmountForAction ctx address action chain
      if claimable.isNil then pure total
      else ofOption (total.add { denom := total.denom, amount := claimable.amount }) .panic) zero

/-! ## Payments -/

/-- `SendCoinsFromModuleToAccount`: coins that are not valid and positive panic before
the bank sees them. -/
def sendCoinsFromModuleToAccount (account : Bytes) (coin : Coin) (key : Key) (action : Action) :
    Keeper Unit := do
  failIf (!coin.isValid) .panic
  failIf (env.blockedAddr account) (.err .unauthorized)
  let balance ← reading fun s => s.bank.bal .module coin.denom
  failIf (balance < coin.value) (.err .insufficientFunds)
  writing fun s =>
    { s with
      bank := s.bank.move .module (.user account) coin.denom coin.value
      payments := s.payments ++ [⟨key, action, account, coin⟩] }

/-- `ClaimCoinsForAction`: the coins are sent and the amount is wiped out. -/
def claimCoinsForAction (ctx : Context) (address : String) (action : Action) : Keeper Coin := do
  let claimable ← getClaimableAmountForAction ctx address action .arkeo
  if claimable.isNil || claimable.value = 0 then pure claimable
  else
    let r ← reading (getClaimRecord address .arkeo)
    let account ← ofOption (env.accAddressFromBech32 address) (.err .invalidAddress)
    sendCoinsFromModuleToAccount env account claimable (keyOf .arkeo address) action
    setClaimRecord env (r.setAmount action {})
    pure claimable

/-! ## The end of the airdrop -/

/-- `TransferRemainingToReserve`; an invalid denomination panics in the bank. -/
def transferRemainingToReserve (p : Params) : Keeper Unit := do
  failIf (!validateDenom p.claimDenom) .panic
  let remaining ← reading fun s => s.bank.bal .module p.claimDenom
  if remaining = 0 then pure ()
  else writing fun s => { s with bank := s.bank.move .module .reserve p.claimDenom remaining }

/-- `EndBlocker`: after the end of the airdrop the remaining funds are moved, once. -/
def endBlocker (ctx : Context) : Keeper Unit := do
  let moved ← reading Store.moved
  let p := ctx.params
  if !moved && decide (p.airdropStartTime + p.durationUntilDecay.toInt + p.durationOfDecay.toInt <
      ctx.blockTime) then do
    transferRemainingToReserve p
    writing fun s => { s with moved := true }
  else pure ()

end

end Arkeo.Airdrop
