import Arkeo.Keeper
import Arkeo.LegacyDec

/-! # The manager: settlement and the end of a block

`x/arkeo/keeper/manager.go`: what a contract owes its provider (`contractDebt`),
the settlement that pays it (`settleContract`), and the end blocker, which
finally settles the contracts listed for the height and then checks that the
module accounts back the records.

The end blocker runs outside any cached context: when a settlement fails, what
it did before failing stays.
-/
namespace Arkeo
open Exec

/-- `common.GetUncappedShare`; a panic of the decimals is recovered as zero. -/
def getUncappedShare (part total allocation : ℤ) : ℤ :=
  if part = 0 ∨ total = 0 then 0
  else ((LegacyDec.quo total part).bind fun q => LegacyDec.quo allocation q).getD 0

/-- `common.GetSafeShare`. -/
def getSafeShare (part total allocation : ℤ) : ℤ :=
  getUncappedShare (if total ≤ part then total else part) total allocation

/-- The reserve's share of a settled debt, `valIncome.RoundInt()`. -/
def reserveShare (totalDebt : ℤ) : ℤ :=
  LegacyDec.roundInt (getSafeShare (LegacyDec.ofInt (fetchConfig .reserveTax).toInt)
    (LegacyDec.ofInt maxBasisPoints.toInt) (LegacyDec.ofInt totalDebt))

/-- What the contract has earned its provider so far, before the cap. -/
def Contract.product (ctx : Context) (c : Contract) : Keeper ℤ :=
  match c.type with
  | .subscription => do
      let height := if ctx.blockHeight > c.settlementPeriodEnd then c.settlementPeriodEnd
        else ctx.blockHeight
      let byHeight ← checked (c.rate.amount * (height - c.height).toInt)
      checked (byHeight * c.queriesPerMinute.toInt)
  | .payAsYouGo => checked (c.rate.amount * c.nonce.toInt)
  | .unknown _ => throw (.err .invalidContractType)

def contractDebt (ctx : Context) (c : Contract) : Keeper ℤ := do
  let product ← c.product ctx
  let debt ← checked (product - c.paid)
  if debt < 0 then pure 0
  else do
    -- the provider cannot take more than was deposited into the contract
    let total ← checked (c.paid + debt)
    if total > c.deposit then checked (c.deposit - c.paid) else pure debt

variable (cr : Crypto)

/-- Pays the debt to the provider and the tax on it to the reserve. -/
def payDebt (c : Contract) (debt valIncome : ℤ) : Keeper Unit := do
  if debt = 0 then pure ()
  else do
    let provider ← ofOption (cr.getMyAddress c.provider) (.err .plain)
    let income ← newCoin c.rate.denom debt
    sendFromModuleToAccount .contract provider income (.income c.id)
    let tax ← newCoin c.rate.denom valIncome
    sendFromModuleToModule .contract .reserve tax (.tax c.id)

/-- Refunds what is left of the deposit to the client; the deposit becomes what
was paid. -/
def refundRemainder (c : Contract) : Keeper Contract := do
  let remainder ← checked (c.deposit - c.paid)
  if remainder = 0 then pure c
  else do
    let client ← ofOption (cr.getMyAddress c.client) (.err .plain)
    let coin ← newCoin c.rate.denom remainder
    sendFromModuleToAccount .contract client coin (.refund c.id)
    pure { c with deposit := c.paid }

/-- The part of a settlement that only a final one has. -/
def finalizeContract (ctx : Context) (c : Contract) (isFinal : Bool) : Keeper Contract :=
  if isFinal then do
    let c ← refundRemainder cr c
    let c := { c with settlementHeight := ctx.blockHeight }
    removeFromUserContractSet c.getSpender c.id
    pure c
  else pure c

/-- The settlement of a contract at the nonce it has. -/
def settleDebt (ctx : Context) (c : Contract) (isFinal : Bool) : Keeper Contract := do
  let totalDebt ← contractDebt ctx c
  let valIncome := reserveShare totalDebt
  payDebt cr c (totalDebt - valIncome) valIncome
  let paid ← checked (c.paid + totalDebt)
  let c ← finalizeContract cr ctx { c with paid := paid } isFinal
  setContract c
  emitContractSettlementEvent ctx totalDebt valIncome c
  pure c

/-- A settlement may raise the nonce, never lower it. -/
def Contract.raiseNonce (c : Contract) (nonce : Int64) : Contract :=
  { c with nonce := if nonce > c.nonce then nonce else c.nonce }

/-- `Manager.SettleContract`: any owed debt is paid to the provider. -/
def settleContract (ctx : Context) (c : Contract) (nonce : Int64) (isFinal : Bool) :
    Keeper Contract :=
  settleDebt cr ctx (c.raiseNonce nonce) isFinal

/-- One pass of the loop of `ContractEndBlock`. -/
def settleExpired (ctx : Context) (contractId : ℕ) : Keeper Unit := do
  let c ← getContract contractId
  if c.client = "" then pure ()
  else logged do
    let _ ← settleContract cr ctx c 0 true
    removeContractExpirationSet c.expiration

def contractEndBlock (ctx : Context) : Keeper Unit := do
  let set ← getContractExpirationSet ctx.blockHeight
  forEach (settleExpired cr ctx) set.contractIds

/-! ## The invariants checked at the end of a block -/

/-- The bonds of all providers. -/
def ChainState.bondSum (s : ChainState) : ℤ := s.providers.sumOver fun _ p => p.bond

def invariantBondModule : Keeper Unit := do
  let balance ← reading fun s => s.balance (.module .provider) denom
  let sum ← reading ChainState.bondSum
  failIf (balance < sum) (.err .invariantBondModule)

/-- Adds a coin to a list of coins, one for each denomination. -/
def addCoin (coin : Coin) : List Coin → List Coin
  | [] => [coin]
  | c :: cs => if c.denom = coin.denom then ⟨c.denom, c.amount + coin.amount⟩ :: cs
      else c :: addCoin coin cs

/-- `sums.Add(NewCoin(denom, amount))` over the contracts that are not settled. -/
def sumContracts (ctx : Context) : List Contract → List Coin → Keeper (List Coin)
  | [], sums => pure sums
  | c :: cs, sums =>
      if c.isSettled ctx.blockHeight then sumContracts ctx cs sums
      else do
        let amount ← checked (c.deposit - c.paid)
        let coin ← newCoin c.rate.denom amount
        let sums := addCoin coin sums
        failIf (sums.any fun x => decide (2 ^ 256 ≤ x.amount.natAbs)) .panic
        sumContracts ctx cs sums

def invariantContractModule (ctx : Context) : Keeper Unit := do
  let contracts ← reading fun s => s.contracts.entries.map Sigma.snd
  let sums ← sumContracts ctx contracts []
  let short ← reading fun s => sums.any fun sum =>
    sum.amount ≠ 0 && decide (s.balance (.module .contract) sum.denom < sum.amount)
  failIf short (.err .invariantContractModule)

def invariantMaxSupply : Keeper Unit := do
  let supply ← reading fun s => s.bank.supply denom
  failIf ((fetchConfig .maxSupply).toInt < supply) (.err .invariantMaxSupply)

/-- An error of an invariant check becomes a panic. -/
def orPanic (x : Keeper Unit) : Keeper Unit := fun s =>
  match x s with
  | .ok u s' => .ok u s'
  | .error _ s' => .error .panic s'

def endBlock (ctx : Context) : Keeper Unit := do
  logged (contractEndBlock cr ctx)
  orPanic invariantBondModule
  orPanic (invariantContractModule ctx)
  orPanic invariantMaxSupply

end Arkeo
