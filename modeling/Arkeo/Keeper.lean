import Arkeo.Exec
import Arkeo.Ledger
import Arkeo.Services

/-! # The keeper

The store of the arkeo module and the accounts of the bank, with the keeper
functions of `x/arkeo/keeper` that read and write them.  Each kind of record has
a store of its own, keyed by the part of its key that tells the records of the
kind apart: contracts by id, expiration sets by height, user sets by the
upper-cased public key and providers by the upper-cased public key and the
service id.

The bank moves exactly the requested coin, or fails for lack of funds and changes
nothing.  It keeps a journal of its transfers; a transfer made on behalf of a
contract says so in its `Purpose`, which no function reads.
-/
namespace Arkeo
open Exec

/-- The module accounts the arkeo module sends to and from. -/
inductive ModuleName where
  | reserve
  | provider
  | contract
  deriving DecidableEq, Repr

/-- An account of the bank.  A module account has no key, so it is no user's. -/
inductive Account where
  | module (name : ModuleName)
  | user (addr : Bytes)
  deriving DecidableEq, Repr

/-- Why the bank moved coins. -/
inductive Purpose where
  | openCost
  | bond
  | deposit (contractId : ℕ)
  | income (contractId : ℕ)
  | tax (contractId : ℕ)
  | refund (contractId : ℕ)
  | other
  deriving DecidableEq, Repr

/-- One transfer of the bank. -/
structure Posting where
  src : Account
  dst : Account
  coin : Coin
  purpose : Purpose
  deriving DecidableEq, Repr

/-- `EventOpenContract`. -/
structure EventOpenContract where
  provider : PubKey
  contractId : ℕ
  service : String
  client : PubKey
  delegate : PubKey
  type : ContractType
  height : Int64
  duration : Int64
  rate : Coin
  openCost : Int64
  deposit : ℤ
  settlementDuration : Int64
  authorization : ContractAuthorization
  queriesPerMinute : Int64
  deriving DecidableEq, Repr

/-- `EventSettleContract`. -/
structure EventSettleContract where
  provider : PubKey
  contractId : ℕ
  service : String
  client : PubKey
  delegate : PubKey
  type : ContractType
  nonce : Int64
  height : Int64
  paid : ℤ
  reserve : ℤ
  deriving DecidableEq, Repr

/-- `EventModProvider`. -/
structure EventModProvider where
  creator : Bytes
  provider : PubKey
  service : String
  metadataUri : String
  metadataNonce : ℕ
  status : ProviderStatus
  minContractDuration : Int64
  maxContractDuration : Int64
  subscriptionRate : List Coin
  payAsYouGoRate : List Coin
  bond : ℤ
  settlementDuration : Int64
  deriving DecidableEq, Repr

/-- The events of the module. -/
inductive Event where
  | bondProvider (provider : PubKey) (service : String) (bondRel bondAbs : ℤ)
  | modProvider (e : EventModProvider)
  | openContract (e : EventOpenContract)
  | closeContract (contractId : ℕ) (provider : PubKey) (service : String)
      (client delegate : PubKey)
  | settleContract (e : EventSettleContract)
  | registerService (svc : Service)
  | updateService (svc : Service)
  | removeService (name : String)
  deriving DecidableEq, Repr

/-- The module's store, the bank, and the events emitted so far with the heights of
their blocks. -/
structure ChainState where
  contracts : AList (fun _ : ℕ => Contract) := ∅
  expirationSets : AList (fun _ : Int64 => ContractExpirationSet) := ∅
  userSets : AList (fun _ : String => UserContractSet) := ∅
  /-- The value under the next-id key, `0` when it has never been written.  The source counts in
  `uint64`: a chain that begins without contracts does not open so many. -/
  nextContractId : ℕ := 0
  providers : AList (fun _ : String × ℕ => Provider) := ∅
  /-- The service registry, by lower-case name. -/
  services : AList (fun _ : String => Service) := ∅
  /-- The registry's secondary index: the name of an id. -/
  serviceIds : AList (fun _ : ℕ => String) := ∅
  bank : Ledger Account String := ∅
  journal : List Posting := []
  events : List (Int64 × Event) := []

/-- The context of a block: its height, which leaves room for the longest
contract before the heights wrap around, the chain id, and the account the keeper
takes orders from, by default that of the governance module. -/
structure Context where
  blockHeight : Int64
  chainID : String
  authority : String := "arkeo10d07y265gmmuvt4z0w9aw880jnsr700jezxqtk"
  pos : 0 < blockHeight.toInt
  fits : blockHeight.toInt + (fetchConfig .maxContractLength).toInt < 2 ^ 63

/-- The errors the handlers return. -/
inductive Err where
  | providerBadSigner
  | insufficientFunds
  | invalidBond
  | invalidModProviderMetdataURI
  | invalidModProviderMaxContractDuration
  | invalidModProviderMinContractDuration
  | invalidModProviderNoBond
  | disabledHandler
  | invalidService
  | openContractBadProviderStatus
  | openContractDuration
  | openContractMismatchRate
  | openContractAlreadyOpen
  | openContractRate
  | invalidContractType
  | invalidPubKey
  | closeContractAlreadyClosed
  | closeContractUnauthorized
  | openContractMismatchSettlementDuration
  | claimContractIncomeBadNonce
  | claimContractIncomeClosed
  | claimContractIncomeInvalidSignature
  | providerNotFound
  | contractNotFound
  | invalidModProviderSettlementDuration
  | invalidModProviderRate
  | invariantBondModule
  | invariantContractModule
  | invariantMaxSupply
  | invalidAuthorization
  /-- An error without a registered code. -/
  | plain
  deriving DecidableEq, Repr

/-- A keeper function. -/
abbrev Keeper := EStateM (Fault Err) ChainState

/-! ## Contracts -/

def getContract (id : ℕ) : Keeper Contract :=
  reading fun s => (s.contracts.lookup id).getD {}

/-- A service name is never blank, so only the keys are tested. -/
def setContract (c : Contract) : Keeper Unit := do
  failIf (c.provider = "" || c.client = "") (.err .plain)
  writing fun s => { s with contracts := s.contracts.insert c.id c }

def getContractExpirationSet (height : Int64) : Keeper ContractExpirationSet :=
  reading fun s => (s.expirationSets.lookup height).getD ⟨height, []⟩

def setContractExpirationSet (record : ContractExpirationSet) : Keeper Unit := do
  failIf (record.height ≤ 0) (.err .plain)
  writing fun s => { s with
    expirationSets :=
      if record.contractIds = [] then s.expirationSets.erase record.height
      else s.expirationSets.insert record.height record }

def removeContractExpirationSet (height : Int64) : Keeper Unit :=
  writing fun s => { s with expirationSets := s.expirationSets.erase height }

/-- `ContractExpirationSet.Append`. -/
def ContractExpirationSet.append (set : ContractExpirationSet) (id : ℕ) : ContractExpirationSet :=
  { set with contractIds := set.contractIds ++ [id] }

def ChainState.getNextContractId (s : ChainState) : ℕ :=
  if s.nextContractId = 0 then 1 else s.nextContractId

def getAndIncrementNextContractId : Keeper ℕ := do
  let contractId ← reading ChainState.getNextContractId
  writing fun s => { s with nextContractId := contractId + 1 }
  pure contractId

/-! ## User sets -/

def getUserContractSet (user : PubKey) : Keeper UserContractSet :=
  reading fun s => (s.userSets.lookup (toUpper user)).getD ⟨user, none⟩

def setUserContractSet (set : UserContractSet) : Keeper Unit := do
  failIf (set.user = "") (.err .plain)
  writing fun s => { s with
    userSets :=
      if set.contractSet.getD [] = [] then s.userSets.erase (toUpper set.user)
      else s.userSets.insert (toUpper set.user) set }

/-- `UserContractSet.RemoveContractFromSet`: takes out the first occurrence; an
error when the set is nil, empty, or does not have the id. -/
def UserContractSet.removeContractFromSet (set : UserContractSet) (id : ℕ) :
    Option UserContractSet :=
  match set.contractSet with
  | none => none
  | some ids => if id ∈ ids then some { set with contractSet := some (ids.erase id) } else none

def removeFromUserContractSet (user : PubKey) (contractId : ℕ) : Keeper Unit := do
  let contractSet ← getUserContractSet user
  let contractSet ← ofOption (contractSet.removeContractFromSet contractId) (.err .plain)
  if contractSet.contractSet.getD [] = [] then
    writing fun s => { s with userSets := s.userSets.erase (toUpper user) }
  else
    setUserContractSet contractSet

/-- The first contract of a user's set with this provider and service that is
open at the height. -/
def getActiveContractForUser (ctx : Context) (user provider : PubKey) (service : ℕ) :
    Keeper Contract := do
  let contractSet ← getUserContractSet user
  reading fun s =>
    (((contractSet.contractSet.getD []).map fun id => (s.contracts.lookup id).getD {}).find?
      fun c => c.provider = provider && serviceEquals c.service service &&
        c.isOpen ctx.blockHeight).getD {}

/-! ## Providers and services -/

def getProvider (pubKey : PubKey) (service : ℕ) : Keeper Provider :=
  reading fun s => (s.providers.lookup (toUpper pubKey, service)).getD
    { pubKey := pubKey, service := service }

/-- A provider without a bond is deleted. -/
def setProvider (p : Provider) : Keeper Unit := do
  failIf (p.pubKey = "") (.err .plain)
  writing fun s => { s with
    providers :=
      if p.bond = 0 then s.providers.erase (toUpper p.pubKey, p.service)
      else s.providers.insert (toUpper p.pubKey, p.service) p }

def removeProvider (pubKey : PubKey) (service : ℕ) : Keeper Unit :=
  writing fun s => { s with providers := s.providers.erase (toUpper pubKey, service) }

def getService (name : String) : Keeper (Option Service) :=
  reading fun s => s.services.lookup (toLower name)

def resolveServiceEnum (name : String) : Keeper (ℕ × Service) := do
  let svc ← ofOption (← getService name) (.err .plain)
  failIf (svc.id = 0 || 2147483647 < svc.id) (.err .plain)
  pure (svc.id, svc)

def getServiceByID (id : ℕ) : Keeper (Option Service) :=
  reading fun s => (s.serviceIds.lookup id).bind fun name => s.services.lookup (toLower name)

/-- Writes a record and its entry of the index; an entry under an older id stays. -/
def setService (svc : Service) : Keeper Unit := do
  failIf (isBlank svc.name) (.err .plain)
  failIf (svc.id = 0) (.err .plain)
  writing fun s => { s with
    services := s.services.insert (toLower svc.name) svc
    serviceIds := s.serviceIds.insert svc.id (toLower svc.name) }

/-- `KVStore.RemoveService`: providers bonded to the service are not looked at. -/
def removeServiceRecord (name : String) : Keeper Unit :=
  writing fun s => { s with
    services := s.services.erase (toLower name)
    serviceIds := match s.services.lookup (toLower name) with
      | some svc => s.serviceIds.erase svc.id
      | none => s.serviceIds }

/-! ## Integers and coins -/

/-- A big integer of the source: it panics past 256 bits. -/
def checked (x : ℤ) : Keeper ℤ := do
  failIf (2 ^ 256 ≤ x.natAbs) .panic
  pure x

/-- `Int.Int64()`: it panics outside the `int64` range. -/
def toInt64 (x : ℤ) : Keeper Int64 := do
  failIf (x < -2 ^ 63 || 2 ^ 63 ≤ x) .panic
  pure (Int64.ofInt x)

/-- `sdk.NewCoin`: it panics on an invalid denomination or a negative amount. -/
def newCoin (denom : String) (amount : ℤ) : Keeper Coin := do
  failIf (!Coin.valid ⟨denom, amount⟩) .panic
  pure ⟨denom, amount⟩

/-! ## The bank -/

def ChainState.balance (s : ChainState) (a : Account) (denom : String) : ℤ := s.bank.bal a denom

/-- The store after a transfer of `NewCoins(coin)`: a zero coin is no coin, so
nothing moves. -/
def ChainState.sent (s : ChainState) (src dst : Account) (coin : Coin) (purpose : Purpose) :
    ChainState :=
  if coin.amount = 0 then s
  else { s with
    bank := s.bank.move src dst coin.denom coin.amount
    journal := s.journal ++ [⟨src, dst, coin, purpose⟩] }

def sendCoin (src dst : Account) (coin : Coin) (purpose : Purpose) : Keeper Unit := do
  let balance ← reading fun s => s.balance src coin.denom
  failIf (balance < coin.amount) (.err .insufficientFunds)
  writing fun s => s.sent src dst coin purpose

def sendFromAccountToModule (src : Bytes) (dst : ModuleName) (coin : Coin) (purpose : Purpose) :
    Keeper Unit :=
  sendCoin (.user src) (.module dst) coin purpose

def sendFromModuleToAccount (src : ModuleName) (dst : Bytes) (coin : Coin) (purpose : Purpose) :
    Keeper Unit :=
  sendCoin (.module src) (.user dst) coin purpose

def sendFromModuleToModule (src dst : ModuleName) (coin : Coin) (purpose : Purpose) :
    Keeper Unit :=
  sendCoin (.module src) (.module dst) coin purpose

/-! ## Events -/

def emit (ctx : Context) (e : Event) : Keeper Unit :=
  writing fun s => { s with events := s.events ++ [(ctx.blockHeight, e)] }

def emitOpenContractEvent (ctx : Context) (openCost : Int64) (c : Contract) : Keeper Unit :=
  emit ctx (.openContract
    { provider := c.provider, contractId := c.id, service := serviceString c.service
      client := c.client, delegate := c.delegate, type := c.type, height := c.height
      duration := c.duration, rate := c.rate, openCost := openCost, deposit := c.deposit
      settlementDuration := c.settlementDuration, authorization := c.authorization
      queriesPerMinute := c.queriesPerMinute })

def emitCloseContractEvent (ctx : Context) (c : Contract) : Keeper Unit :=
  emit ctx (.closeContract c.id c.provider (serviceString c.service) c.client c.delegate)

def emitContractSettlementEvent (ctx : Context) (debt valIncome : ℤ) (c : Contract) :
    Keeper Unit :=
  emit ctx (.settleContract
    { provider := c.provider, contractId := c.id, service := serviceString c.service
      client := c.client, delegate := c.delegate, type := c.type, nonce := c.nonce
      height := c.height, paid := debt, reserve := valIncome })

def emitModProviderEvent (ctx : Context) (creator : Bytes) (p : Provider) : Keeper Unit :=
  emit ctx (.modProvider
    { creator := creator, provider := p.pubKey, service := serviceString p.service
      metadataUri := p.metadataUri, metadataNonce := p.metadataNonce, status := p.status
      minContractDuration := p.minContractDuration
      maxContractDuration := p.maxContractDuration, subscriptionRate := p.subscriptionRate
      payAsYouGoRate := p.payAsYouGoRate, bond := p.bond
      settlementDuration := p.settlementDuration })

def emitBondProviderEvent (ctx : Context) (cr : Crypto) (bond : ℤ) (msg : MsgBondProvider) :
    Keeper Unit := do
  let provider ← ofOption (cr.newPubKey msg.provider) (.err .invalidPubKey)
  emit ctx (.bondProvider provider msg.service msg.bond bond)

end Arkeo
