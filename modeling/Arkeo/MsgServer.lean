import Arkeo.Manager

/-! # The message handlers

`ValidateBasic` of the messages about providers, contracts and services and their
handlers, from `x/arkeo/types/message_*.go` and `x/arkeo/keeper/msg_server_*.go`.  A
message is validated and then run in a cached context: a handler that fails
leaves no trace (`deliver`).
-/
namespace Arkeo
open Exec

variable (cr : Crypto)

/-- `MustGetSigner`: it panics on a creator that is no address. -/
def mustGetSigner (creator : String) : Keeper Bytes :=
  ofOption (cr.accAddressFromBech32 creator) .panic

/-! ## Bonding -/

def MsgBondProvider.validateBasic (msg : MsgBondProvider) : Keeper Unit := do
  let providerPubKey ← ofOption (cr.newPubKey msg.provider) (.err .invalidPubKey)
  let signer ← mustGetSigner cr msg.creator
  let provider ← ofOption (cr.getMyAddress providerPubKey) (.err .plain)
  failIf (signer ≠ provider) (.err .providerBadSigner)
  failIf (isBlank msg.service) (.err .invalidService)
  failIf (msg.bond = 0) (.err .invalidBond)

/-- Providers may unbond while contracts are under way. -/
def bondProviderValidate : Keeper Unit :=
  failIf (fetchConfig .handlerBondProvider > 0) (.err .disabledHandler)

/-- The transfer of a bond to the module, or back when it is withdrawn. -/
def moveBond (provider : Provider) (addr : Bytes) (bond : ℤ) (coin : Coin) : Keeper Unit :=
  if 0 < bond then sendFromAccountToModule addr .provider coin .bond
  else if bond < 0 then do
    failIf (provider.bond < coin.amount) (.err .insufficientFunds)
    sendFromModuleToAccount .provider addr coin .bond
  else throw (.err .plain)

/-- A provider whose bond is used up is deleted. -/
def writeBond (ctx : Context) (provider : Provider) (bond : ℤ) : Keeper Unit :=
  if bond = 0 then removeProvider provider.pubKey provider.service
  else setProvider { provider with bond := bond, lastUpdate := ctx.blockHeight }

def bondProviderHandle (ctx : Context) (msg : MsgBondProvider) : Keeper Unit := do
  let (service, _) ← resolveServiceEnum msg.service
  let providerPubKey ← ofOption (cr.newPubKey msg.provider) (.err .plain)
  let provider ← getProvider providerPubKey service
  let addr ← ofOption (cr.getMyAddress providerPubKey) (.err .plain)
  let amount ← toInt64 msg.bond.natAbs
  moveBond provider addr msg.bond ⟨denom, amount.toInt⟩
  let bond ← checked (provider.bond + msg.bond)
  writeBond ctx provider bond
  emitBondProviderEvent ctx cr bond msg

def bondProvider (ctx : Context) (msg : MsgBondProvider) : Keeper Unit := do
  bondProviderValidate
  bondProviderHandle cr ctx msg

/-! ## Provider settings -/

/-- `NewCoins(rates...)` and its tests; `NewCoins` leaves only valid positive
coins, so what can fail after it is the empty list, which is not all positive. -/
def validateRates (rates : List Coin) : Keeper Unit := do
  let coins ← ofOption (newCoins rates) .panic
  failIf (coins = []) (.err .invalidModProviderRate)

def MsgModProvider.validateBasic (msg : MsgModProvider) : Keeper Unit := do
  let _ ← ofOption (cr.newPubKey msg.provider) (.err .invalidPubKey)
  failIf (isBlank msg.service) (.err .invalidService)
  let signer ← mustGetSigner cr msg.creator
  let provider ← ofOption (cr.getMyAddress msg.provider) (.err .plain)
  failIf (signer ≠ provider) (.err .providerBadSigner)
  failIf (100 < msg.metadataUri.utf8ByteSize) (.err .invalidModProviderMetdataURI)
  failIf (msg.minContractDuration ≤ 0) (.err .invalidModProviderMinContractDuration)
  failIf (msg.minContractDuration > msg.maxContractDuration)
    (.err .invalidModProviderMinContractDuration)
  failIf (msg.settlementDuration < 0) (.err .invalidModProviderSettlementDuration)
  validateRates msg.subscriptionRate
  validateRates msg.payAsYouGoRate

def modProviderValidate (msg : MsgModProvider) : Keeper Unit := do
  failIf (fetchConfig .handlerModProvider > 0) (.err .disabledHandler)
  let maxContractDuration := fetchConfig .maxContractLength
  failIf (maxContractDuration > 0 && decide (msg.maxContractDuration > maxContractDuration))
    (.err .invalidModProviderMaxContractDuration)
  failIf (maxContractDuration > 0 && decide (msg.minContractDuration > maxContractDuration))
    (.err .invalidModProviderMinContractDuration)
  let (service, _) ← resolveServiceEnum msg.service
  let provider ← getProvider msg.provider service
  failIf (provider.bond = 0) (.err .invalidModProviderNoBond)

def modProviderHandle (ctx : Context) (msg : MsgModProvider) : Keeper Unit := do
  let (service, _) ← resolveServiceEnum msg.service
  let provider ← getProvider msg.provider service
  let provider := { provider with
    metadataUri := if msg.metadataUri ≠ "" then msg.metadataUri else provider.metadataUri
    metadataNonce := max provider.metadataNonce msg.metadataNonce
    status := msg.status
    minContractDuration := msg.minContractDuration
    maxContractDuration := msg.maxContractDuration
    subscriptionRate := msg.subscriptionRate
    payAsYouGoRate := msg.payAsYouGoRate
    settlementDuration := msg.settlementDuration
    lastUpdate := ctx.blockHeight }
  setProvider provider
  let creator ← mustGetSigner cr msg.creator
  emitModProviderEvent ctx creator provider

def modProvider (ctx : Context) (msg : MsgModProvider) : Keeper Unit := do
  modProviderValidate msg
  modProviderHandle cr ctx msg

/-! ## Opening a contract -/

def MsgOpenContract.validateBasic (msg : MsgOpenContract) : Keeper Unit := do
  let _ ← ofOption (cr.newPubKey msg.provider) (.err .invalidPubKey)
  failIf (isBlank msg.service) (.err .invalidService)
  let clientPubKey ← ofOption (cr.newPubKey msg.client) (.err .invalidPubKey)
  let signer ← mustGetSigner cr msg.creator
  let client ← ofOption (cr.getMyAddress clientPubKey) (.err .plain)
  failIf (signer ≠ client) (.err .invalidPubKey)
  failIf (msg.duration ≤ 0) (.err .openContractDuration)
  failIf (!msg.rate.valid) (.err .plain)
  failIf (msg.queriesPerMinute ≤ 0) (.err .plain)
  failIf (msg.rate.amount ≤ 0) (.err .openContractRate)
  failIf (msg.settlementDuration < 0) (.err .invalidModProviderSettlementDuration)
  -- anyone, the provider included, could empty such a contract
  failIf (msg.contractType = .payAsYouGo && msg.authorization = .openAuth)
    (.err .invalidAuthorization)

/-- `GetSpender` of the message. -/
def MsgOpenContract.getSpender (msg : MsgOpenContract) : Keeper PubKey :=
  ofOption (cr.newPubKey msg.spender) (.err .invalidPubKey)

/-- `NewCoins(rates...).AmountOf(denom)`. -/
def rateOf (rates : List Coin) (denom : String) : Keeper ℤ := do
  let coins ← ofOption (newCoins rates) .panic
  ofOption (amountOf coins denom) .panic

/-- The tests on the rate that the two types of contract share. -/
def matchRate (rates : List Coin) (rate : Coin) : Keeper Unit := do
  let amount ← rateOf rates rate.denom
  failIf (amount = 0) (.err .openContractMismatchRate)
  failIf (rate.amount ≠ amount) (.err .openContractMismatchRate)

/-- The terms of the contract have to be the provider's. -/
def matchTerms (provider : Provider) (msg : MsgOpenContract) : Keeper Unit :=
  match msg.contractType with
  | .subscription => do
      matchRate provider.subscriptionRate msg.rate
      let amount ← toInt64 msg.rate.amount
      -- the product is an `int64` and wraps around
      failIf ((amount * msg.duration * msg.queriesPerMinute).toInt ≠ msg.deposit)
        (.err .openContractMismatchRate)
  | .payAsYouGo => do
      matchRate provider.payAsYouGoRate msg.rate
      failIf (msg.settlementDuration ≠ provider.settlementDuration)
        (.err .openContractMismatchSettlementDuration)
  | .unknown _ => throw (.err .invalidContractType)

def openContractValidate (ctx : Context) (msg : MsgOpenContract) : Keeper Unit := do
  failIf (fetchConfig .handlerOpenContract > 0) (.err .disabledHandler)
  let (service, _) ← resolveServiceEnum msg.service
  let providerPubKey ← ofOption (cr.newPubKey msg.provider) (.err .plain)
  let provider ← getProvider providerPubKey service
  failIf (provider.lastUpdate = 0) (.err .providerNotFound)
  failIf (provider.bond < (fetchConfig .minProviderBond).toInt) (.err .invalidBond)
  failIf (provider.status ≠ .online) (.err .openContractBadProviderStatus)
  failIf (msg.duration > provider.maxContractDuration) (.err .openContractDuration)
  failIf (msg.duration < provider.minContractDuration) (.err .openContractDuration)
  matchTerms provider msg
  let spender ← msg.getSpender cr
  let activeContract ← getActiveContractForUser ctx spender providerPubKey service
  failIf (!activeContract.isEmpty && !activeContract.isExpired ctx.blockHeight &&
    msg.contractType ≠ .payAsYouGo) (.err .openContractAlreadyOpen)

/-- The record of a contract that is being opened. -/
def newContract (ctx : Context) (msg : MsgOpenContract) (service contractId : ℕ)
    (provider client delegate : PubKey) : Contract where
  provider := provider
  id := contractId
  service := service
  type := msg.contractType
  client := client
  delegate := delegate
  duration := msg.duration
  rate := msg.rate
  deposit := msg.deposit
  paid := 0
  height := ctx.blockHeight
  settlementDuration := msg.settlementDuration
  authorization := msg.authorization
  queriesPerMinute := msg.queriesPerMinute

def payOpenCost (signer : Bytes) (openCost : Int64) : Keeper Unit :=
  if openCost > 0 then sendFromAccountToModule signer .reserve ⟨denom, openCost.toInt⟩ .openCost
  else pure ()

def openContractHandle (ctx : Context) (msg : MsgOpenContract) : Keeper Unit := do
  -- the client is the delegate when none is named
  let delegate := msg.spender
  let openCost := fetchConfig .openContractCost
  let signer ← mustGetSigner cr msg.creator
  payOpenCost signer openCost
  let deposit ← newCoin msg.rate.denom msg.deposit
  let nextId ← reading ChainState.getNextContractId
  sendFromAccountToModule signer .contract deposit (.deposit nextId)
  let (service, _) ← resolveServiceEnum msg.service
  let providerPubKey ← ofOption (cr.newPubKey msg.provider) (.err .invalidPubKey)
  let clientPubKey ← ofOption (cr.newPubKey msg.client) (.err .invalidPubKey)
  let delegatePubKey ← ofOption (cr.newPubKey delegate) (.err .invalidPubKey)
  let contractId ← getAndIncrementNextContractId
  let contract := newContract ctx msg service contractId providerPubKey clientPubKey delegatePubKey
  let expirationSet ← getContractExpirationSet contract.settlementPeriodEnd
  setContractExpirationSet (expirationSet.append contract.id)
  let userSet ← getUserContractSet delegatePubKey
  setUserContractSet
    { userSet with contractSet := some (userSet.contractSet.getD [] ++ [contract.id]) }
  setContract contract
  emitOpenContractEvent ctx openCost contract

def openContract (ctx : Context) (msg : MsgOpenContract) : Keeper Unit := do
  openContractValidate cr ctx msg
  openContractHandle cr ctx msg

/-! ## Closing a contract -/

def MsgCloseContract.validateBasic (msg : MsgCloseContract) : Keeper Unit := do
  failIf (msg.creator = "") (.err .closeContractUnauthorized)
  failIf (msg.contractId = 0) (.err .contractNotFound)
  let client ← ofOption msg.client (.err .closeContractUnauthorized)
  let _ ← ofOption (cr.newPubKey client) (.err .invalidPubKey)
  let signer ← mustGetSigner cr msg.creator
  let address ← ofOption (cr.getMyAddress client) (.err .plain)
  failIf (signer ≠ address) (.err .invalidPubKey)

def closeContractValidate (ctx : Context) (msg : MsgCloseContract) : Keeper Unit := do
  failIf (fetchConfig .handlerCloseContract > 0) (.err .disabledHandler)
  let contract ← getContract msg.contractId
  failIf contract.isEmpty (.err .contractNotFound)
  let contractClientAddress ← ofOption (cr.getMyAddress contract.client) (.err .invalidPubKey)
  let signerAddress ← mustGetSigner cr msg.creator
  failIf (contractClientAddress ≠ signerAddress) (.err .closeContractUnauthorized)
  failIf (contract.isExpired ctx.blockHeight) (.err .closeContractAlreadyClosed)
  failIf (msg.delegate.any fun delegate => delegate ≠ contract.delegate)
    (.err .closeContractUnauthorized)

/-- A closed pay-as-you-go contract is listed once more, for the end of the
settlement period that starts now. -/
def relist (ctx : Context) (contract : Contract) : Keeper Unit :=
  if contract.isPayAsYouGo then do
    removeContractExpirationSet contract.expiration
    let newHeight := ctx.blockHeight + contract.settlementDuration
    let expirationSet ← getContractExpirationSet newHeight
    setContractExpirationSet (expirationSet.append contract.id)
  else pure ()

def closeContractHandle (ctx : Context) (msg : MsgCloseContract) : Keeper Unit := do
  let contract ← getContract msg.contractId
  relist ctx contract
  let _ ← settleContract cr ctx contract 0 contract.isSubscription
  emitCloseContractEvent ctx contract

def closeContract (ctx : Context) (msg : MsgCloseContract) : Keeper Unit := do
  closeContractValidate cr ctx msg
  closeContractHandle cr ctx msg

/-! ## Claiming the income of a contract -/

def MsgClaimContractIncome.validateBasic (msg : MsgClaimContractIncome) : Keeper Unit := do
  failIf (100 < msg.signature.length) (.err .claimContractIncomeInvalidSignature)
  failIf (msg.nonce ≤ 0) (.err .claimContractIncomeBadNonce)

/-- The order of the group of secp256k1. -/
def secpN : ℕ := 0xFFFFFFFFFFFFFFFFFFFFFFFFFFFFFFFEBAAEDCE6AF48A03BBFD25E8CD0364141

def secpHalfN : ℕ := secpN / 2

/-- `big.Int.SetBytes`: big-endian. -/
def setBytes (bs : Bytes) : ℕ := bs.foldl (fun n b => n * 256 + b.toNat) 0

/-- `big.Int.FillBytes` into `n` bytes. -/
def fillBytes (n x : ℕ) : Bytes :=
  (List.range n).reverse.map fun i => UInt8.ofNat (x / 256 ^ i)

/-- The bytes of `fmt.Sprintf("%d:%d:%s", contractId, nonce, chainID)`. -/
def getBytesToSign (contractId : ℕ) (nonce : Int64) (chainID : String) : Bytes :=
  (toString contractId ++ ":" ++ toString nonce.toInt ++ ":" ++ chainID).toUTF8.data.toList

/-- The four messages a claim may be signed over: with and without the chain id,
each as it is and hashed. -/
def verifyAny (pk : Bytes) (contractId : ℕ) (nonce : Int64) (chainID : String) (sig : Bytes) :
    Bool :=
  let pre := getBytesToSign contractId nonce chainID
  let preNoChain := getBytesToSign contractId nonce ""
  cr.verifySignature pk pre sig || cr.verifySignature pk (cr.sha256 pre) sig ||
    cr.verifySignature pk preNoChain sig || cr.verifySignature pk (cr.sha256 preNoChain) sig

/-- `r || s` with `s` replaced by `N - s`. -/
def normalizeS (sig : Bytes) : Bytes :=
  let r := setBytes (sig.take 32)
  let s := setBytes (sig.drop 32)
  fillBytes 32 r ++ fillBytes 32 ((secpN : ℤ) - s).natAbs

/-- The signature test of an income claim, for the key of the spender. -/
def verifyClaim (pk : Bytes) (contractId : ℕ) (nonce : Int64) (chainID : String) (sig : Bytes) :
    Bool :=
  decide (sig.length = 64) &&
    (verifyAny cr pk contractId nonce chainID sig ||
      (decide (secpHalfN < setBytes (sig.drop 32)) &&
        verifyAny cr pk contractId nonce chainID (normalizeS sig)))

def checkClaimSignature (ctx : Context) (contract : Contract) (msg : MsgClaimContractIncome) :
    Keeper Unit := do
  -- an open subscription needs no signature
  if contract.isSubscription && contract.isOpenAuthorization then pure ()
  else do
    let pk ← ofOption (cr.getPubKeyFromBech32 contract.getSpender) (.err .plain)
    failIf (!verifyClaim cr pk msg.contractId msg.nonce ctx.chainID msg.signature)
      (.err .claimContractIncomeInvalidSignature)

def handlerClaimContractIncome (ctx : Context) (msg : MsgClaimContractIncome) : Keeper Unit := do
  failIf (fetchConfig .handlerClaimContractIncome > 0) (.err .disabledHandler)
  let contract ← getContract msg.contractId
  failIf (contract.nonce ≥ msg.nonce) (.err .claimContractIncomeBadNonce)
  failIf (contract.isSettled ctx.blockHeight) (.err .claimContractIncomeClosed)
  checkClaimSignature cr ctx contract msg
  let _ ← settleContract cr ctx contract msg.nonce false

/-! ## The service registry -/

/-- `types.IsAuthorityAllowed`: the keeper's authority or the extra one. -/
def isAuthorityAllowed (ctx : Context) (addr : String) : Bool :=
  addr = ctx.authority || addr = "arkeo1w2ln0prejgrztmf9w23e0rsnlks7djneh5te7p"

/-- What `ValidateBasic` of the register and update messages tests. -/
def validateService (creator : String) (id : ℕ) (name : String) : Keeper Unit := do
  let _ ← ofOption (cr.accAddressFromBech32 creator) (.err .plain)
  failIf (id = 0) (.err .plain)
  failIf (isBlank name) (.err .plain)

def MsgRegisterService.validateBasic (msg : MsgRegisterService) : Keeper Unit :=
  validateService cr msg.creator msg.id msg.name

def MsgUpdateService.validateBasic (msg : MsgUpdateService) : Keeper Unit :=
  validateService cr msg.creator msg.id msg.name

def MsgRemoveService.validateBasic (msg : MsgRemoveService) : Keeper Unit := do
  let _ ← ofOption (cr.accAddressFromBech32 msg.creator) (.err .plain)
  failIf (isBlank msg.name) (.err .plain)

/-- The record of a service that is being registered. -/
def MsgRegisterService.record (msg : MsgRegisterService) : Service where
  id := msg.id
  name := toLower msg.name
  description := msg.description
  serviceType := msg.serviceType

/-- The record of a service that is being updated. -/
def MsgUpdateService.record (msg : MsgUpdateService) : Service where
  id := msg.id
  name := toLower msg.name
  description := msg.description
  serviceType := msg.serviceType

def registerServiceValidate (ctx : Context) (msg : MsgRegisterService) : Keeper Unit := do
  failIf (!isAuthorityAllowed ctx msg.creator) (.err .plain)
  failIf (← getService msg.name).isSome (.err .plain)
  failIf (← getServiceByID msg.id).isSome (.err .plain)
  msg.validateBasic cr

def registerServiceHandle (ctx : Context) (msg : MsgRegisterService) : Keeper Unit := do
  setService msg.record
  emit ctx (.registerService msg.record)

def registerService (ctx : Context) (msg : MsgRegisterService) : Keeper Unit := do
  registerServiceValidate cr ctx msg
  registerServiceHandle ctx msg

def updateServiceValidate (ctx : Context) (msg : MsgUpdateService) : Keeper Unit := do
  failIf (!isAuthorityAllowed ctx msg.creator) (.err .plain)
  let current ← ofOption (← getService msg.name) (.err .plain)
  failIf (current.id ≠ msg.id) (.err .plain)
  msg.validateBasic cr

def updateServiceHandle (ctx : Context) (msg : MsgUpdateService) : Keeper Unit := do
  setService msg.record
  emit ctx (.updateService msg.record)

def updateService (ctx : Context) (msg : MsgUpdateService) : Keeper Unit := do
  updateServiceValidate cr ctx msg
  updateServiceHandle ctx msg

def removeServiceValidate (ctx : Context) (msg : MsgRemoveService) : Keeper Unit := do
  failIf (!isAuthorityAllowed ctx msg.creator) (.err .plain)
  let _ ← ofOption (← getService msg.name) (.err .plain)
  msg.validateBasic cr

def removeServiceHandle (ctx : Context) (msg : MsgRemoveService) : Keeper Unit := do
  let name := toLower msg.name
  removeServiceRecord name
  emit ctx (.removeService name)

def removeService (ctx : Context) (msg : MsgRemoveService) : Keeper Unit := do
  removeServiceValidate cr ctx msg
  removeServiceHandle ctx msg

/-! ## Delivery -/

inductive Msg where
  | bondProvider (msg : MsgBondProvider)
  | modProvider (msg : MsgModProvider)
  | openContract (msg : MsgOpenContract)
  | closeContract (msg : MsgCloseContract)
  | claimContractIncome (msg : MsgClaimContractIncome)
  | registerService (msg : MsgRegisterService)
  | updateService (msg : MsgUpdateService)
  | removeService (msg : MsgRemoveService)
  deriving DecidableEq, Repr

def Msg.validateBasic : Msg → Keeper Unit
  | .bondProvider msg => msg.validateBasic cr
  | .modProvider msg => msg.validateBasic cr
  | .openContract msg => msg.validateBasic cr
  | .closeContract msg => msg.validateBasic cr
  | .claimContractIncome msg => msg.validateBasic
  | .registerService msg => msg.validateBasic cr
  | .updateService msg => msg.validateBasic cr
  | .removeService msg => msg.validateBasic cr

def Msg.handle (ctx : Context) : Msg → Keeper Unit
  | .bondProvider msg => Arkeo.bondProvider cr ctx msg
  | .modProvider msg => Arkeo.modProvider cr ctx msg
  | .openContract msg => Arkeo.openContract cr ctx msg
  | .closeContract msg => Arkeo.closeContract cr ctx msg
  | .claimContractIncome msg => handlerClaimContractIncome cr ctx msg
  | .registerService msg => Arkeo.registerService cr ctx msg
  | .updateService msg => Arkeo.updateService cr ctx msg
  | .removeService msg => Arkeo.removeService cr ctx msg

/-- Runs a message; `none` when it is rejected. -/
def deliver (ctx : Context) (msg : Msg) : ChainState → Option ChainState :=
  committed do
    msg.validateBasic cr
    msg.handle cr ctx

end Arkeo
