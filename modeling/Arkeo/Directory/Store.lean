import Arkeo.Keeper
import Arkeo.Runs

/-! # The directory

The directory service follows the chain block by block and keeps its providers and
contracts in a relational database.  The tables are modelled with the constraints the
migrations declare on them: a statement that would break one fails and changes nothing.
A handler whose statement fails changes nothing, and the error is logged; a panic ends the
indexer.  The handlers take the messages that the decoder has returned (`handleMessage`);
what they are handed of the events of the chain is in the module `Indexer`.

A contract is updated by three kinds of events.  The event of its opening inserts the row,
or overwrites it when the id is there; a settlement adds to the amounts; a settlement as
well as a close writes the height into `settlement_height`, which the view of the open
contracts takes for the end of the contract.

The handlers also append to one table of records for each kind of event.  No handler reads
them, and none of their failures undoes the write before it.
-/
namespace Arkeo.Directory
open Exec

/-! ## Tables -/

/-- A row of `providers`, which is unique by key and service, with its rows in the two
tables of rates. -/
structure ProviderRow where
  id : ℕ
  bond : ℤ
  metadataUri : Option String := none
  metadataNonce : Option ℕ := none
  status : Option ProviderStatus := none
  minContractDuration : Option ℤ := none
  maxContractDuration : Option ℤ := none
  settlementDuration : Option ℤ := none
  subscriptionRates : List (String × ℤ) := []
  payAsYouGoRates : List (String × ℤ) := []
  deriving DecidableEq, Repr

/-- A row of `contracts`. -/
structure ContractRow where
  providerId : ℕ
  delegatePubkey : String
  clientPubkey : String
  height : ℤ
  contractType : ContractType
  duration : ℤ
  rateAsset : String
  rateAmount : ℤ
  auth : ContractAuthorization
  openCost : ℤ
  deposit : ℤ
  queriesPerMinute : ℤ
  settlementDuration : ℤ
  settlementHeight : ℤ
  nonce : ℤ := 0
  paid : ℤ := 0
  reserveContribAsset : ℤ := 0
  deriving DecidableEq, Repr

structure Database where
  /-- By `pubkey` and `service`. -/
  providers : AList (fun _ : String × String => ProviderRow) := ∅
  contracts : AList (fun _ : ℕ => ContractRow) := ∅

/-- Why a statement or a conversion before it fails. -/
inductive DbError where
  | noRows
  | unique
  | check
  | foreignKey
  | outOfRange
  /-- The event cannot be read. -/
  | decode
  deriving DecidableEq, Repr

abbrev DbM := EStateM (Fault DbError) Database

/-- `Int.Int64`, which panics on a number of more bits. -/
def int64 (x : ℤ) : DbM ℤ :=
  ofOption (if -2 ^ 63 ≤ x ∧ x < 2 ^ 63 then some x else none) .panic

/-! ## Providers -/

/-- `db.ArkeoProvider`. -/
structure ArkeoProvider where
  pubkey : String
  service : String
  bond : ℤ
  metadataUri : String := ""
  metadataNonce : ℕ := 0
  status : ProviderStatus := .offline
  minContractDuration : ℤ := 0
  maxContractDuration : ℤ := 0
  settlementDuration : ℤ := 0
  subscriptionRate : List Coin := []
  payAsYouGoRate : List Coin := []
  deriving DecidableEq, Repr

/-- `insert into providers`: the amount has to be an `int64`. -/
def insertProvider (pubkey service : String) (bond : ℤ) : DbM Unit := do
  failIf (!(-2 ^ 63 ≤ bond && bond < 2 ^ 63)) (.err .outOfRange)
  let taken ← reading fun db => (db.providers.lookup (pubkey, service)).isSome
  failIf taken (.err .unique)
  writing fun db =>
    { db with
      providers := db.providers.insert (pubkey, service)
        { id := db.providers.entries.length + 1, bond := bond } }

/-- The rows of rates as coins; `NewInt64Coin` panics on a bad one. -/
def findRates (rates : List (String × ℤ)) : Option (List Coin) :=
  if rates.all fun r => validateDenom r.1 && 0 ≤ r.2 then
    some (rates.map fun r => ⟨r.1, r.2⟩)
  else none

/-- The columns of `sqlFindProvider`: a null is read as a value of its own. -/
def ProviderRow.found (row : ProviderRow) (pubkey service : String)
    (subscriptionRate payAsYouGoRate : List Coin) : ArkeoProvider where
  pubkey := pubkey
  service := service
  bond := row.bond
  metadataUri := row.metadataUri.getD ""
  metadataNonce := row.metadataNonce.getD 0
  status := row.status.getD .offline
  minContractDuration := row.minContractDuration.getD (-1)
  maxContractDuration := row.maxContractDuration.getD (-1)
  settlementDuration := row.settlementDuration.getD (-1)
  subscriptionRate := subscriptionRate
  payAsYouGoRate := payAsYouGoRate

/-- `FindProvider`; `none` is `ErrNotFound`. -/
def findProvider (pubkey service : String) : DbM (Option (ℕ × ArkeoProvider)) := do
  match ← reading fun db => db.providers.lookup (pubkey, service) with
  | none => pure none
  | some row =>
      let subscriptionRate ← ofOption (findRates row.subscriptionRates) .panic
      let payAsYouGoRate ← ofOption (findRates row.payAsYouGoRates) .panic
      pure (some (row.id, row.found pubkey service subscriptionRate payAsYouGoRate))

/-- `getRateArgs`: a denomination is stored in lower case. -/
def getRateArgs : List Coin → DbM (List (String × ℤ))
  | [] => pure []
  | coin :: coins => do
      let amount ← int64 coin.amount
      let rates ← getRateArgs coins
      pure ((toLower coin.denom, amount) :: rates)

/-- The statuses of the table `provider_status`. -/
def ProviderStatus.isListed : ProviderStatus → Bool
  | .offline | .online => true
  | .unknown _ => false

/-- `UpdateProvider`, one transaction: every column is written, and the rates are deleted
and inserted again. -/
def updateProvider (p : ArkeoProvider) : DbM Unit := do
  let row ← ofOption (← reading fun db => db.providers.lookup (p.pubkey, p.service)) (.err .noRows)
  failIf (!ProviderStatus.isListed p.status) (.err .foreignKey)
  let subscriptionRates ← getRateArgs p.subscriptionRate
  failIf (!decide (subscriptionRates.map Prod.fst).Nodup) (.err .unique)
  let payAsYouGoRates ← getRateArgs p.payAsYouGoRate
  failIf (!decide (payAsYouGoRates.map Prod.fst).Nodup) (.err .unique)
  writing fun db =>
    { db with
      providers := db.providers.insert (p.pubkey, p.service)
        { id := row.id
          bond := p.bond
          metadataUri := some p.metadataUri
          metadataNonce := some p.metadataNonce
          status := some p.status
          minContractDuration := some p.minContractDuration
          maxContractDuration := some p.maxContractDuration
          settlementDuration := some p.settlementDuration
          subscriptionRates := subscriptionRates
          payAsYouGoRates := payAsYouGoRates } }

/-- A bond: the row is created by the first one. -/
def handleBondProviderEvent (provider : PubKey) (service : String) (bondAbs : ℤ) : DbM Unit := do
  match ← findProvider provider service with
  | none => insertProvider provider service bondAbs
  | some (_, p) => updateProvider { p with bond := bondAbs }

def handleModProviderEvent (e : EventModProvider) : DbM Unit := do
  match ← findProvider e.provider e.service with
  | none => throw (.err .noRows)
  | some (_, p) =>
      updateProvider
        { p with
          metadataUri := e.metadataUri
          metadataNonce := e.metadataNonce
          status := e.status
          minContractDuration := e.minContractDuration.toInt
          maxContractDuration := e.maxContractDuration.toInt
          subscriptionRate := e.subscriptionRate
          payAsYouGoRate := e.payAsYouGoRate
          settlementDuration := e.settlementDuration.toInt }

/-! ## Contracts -/

/-- The types of the table `contract_types`. -/
def ContractType.isListed : ContractType → Bool
  | .subscription | .payAsYouGo => true
  | .unknown _ => false

/-- The authorizations of the table `auth_types`. -/
def ContractAuthorization.isListed : ContractAuthorization → Bool
  | .strict | .openAuth => true
  | .unknown _ => false

/-- The constraints on the columns of one row. -/
def ContractRow.valid (row : ContractRow) : Bool :=
  row.delegatePubkey ≠ "" && row.clientPubkey ≠ "" && 0 < row.height &&
    ContractType.isListed row.contractType && ContractAuthorization.isListed row.auth

/-- `contracts_provider_delegate_height_key`: the columns that no two rows share. -/
def ContractRow.slot (row : ContractRow) : ℕ × String × ℤ :=
  (row.providerId, row.delegatePubkey, row.height)

/-- The row of an event. -/
def openedRow (providerId : ℕ) (e : EventOpenContract) : ContractRow where
  providerId := providerId
  delegatePubkey := if e.delegate = "" then e.client else e.delegate
  clientPubkey := e.client
  height := e.height.toInt
  contractType := e.type
  duration := e.duration.toInt
  rateAsset := e.rate.denom
  rateAmount := e.rate.amount
  auth := e.authorization
  openCost := e.openCost.toInt
  deposit := e.deposit
  queriesPerMinute := e.queriesPerMinute.toInt
  settlementDuration := e.settlementDuration.toInt
  -- the events of the chain leave the field of the settlement height empty
  settlementHeight := 0

/-- The columns that `do update` leaves as they are. -/
def ContractRow.keeping (row old : ContractRow) : ContractRow :=
  { row with
    nonce := old.nonce, paid := old.paid, reserveContribAsset := old.reserveContribAsset }

/-- `sqlUpsertContract`: on a conflict of the ids the row is updated, any other conflict is
an error. -/
def upsertContract (providerId : ℕ) (e : EventOpenContract) : DbM Unit := do
  let _ ← int64 e.rate.amount
  let _ ← int64 e.deposit
  let row := openedRow providerId e
  failIf (!row.valid) (.err .check)
  let taken ← reading fun db =>
    db.contracts.entries.any fun r => r.1 ≠ e.contractId && r.2.slot = row.slot
  failIf taken (.err .unique)
  writing fun db =>
    { db with
      contracts := db.contracts.insert e.contractId
        (match db.contracts.lookup e.contractId with
        | none => row
        | some old => row.keeping old) }

def handleOpenContractEvent (e : EventOpenContract) : DbM Unit := do
  match ← findProvider e.provider e.service with
  | none => throw (.err .noRows)
  | some (providerId, _) => upsertContract providerId e

/-- `sqlCloseContract`. -/
def handleCloseContractEvent (contractId : ℕ) (height : Int64) : DbM Unit := do
  let row ← ofOption (← reading fun db => db.contracts.lookup contractId) (.err .noRows)
  writing fun db =>
    { db with
      contracts := db.contracts.insert contractId { row with settlementHeight := height.toInt } }

/-- The row after a settlement. -/
def ContractRow.settled (row : ContractRow) (e : EventSettleContract) (height : Int64) :
    ContractRow :=
  { row with
    nonce := e.nonce.toInt
    paid := row.paid + e.paid
    reserveContribAsset := row.reserveContribAsset + e.reserve
    settlementHeight := height.toInt }

/-- `sqlUpsertContractSettlementEvent`; a sum of more than 64 bits is an error. -/
def handleContractSettlementEvent (e : EventSettleContract) (height : Int64) : DbM Unit := do
  let _ ← int64 e.paid
  let _ ← int64 e.reserve
  let row ← ofOption (← reading fun db => db.contracts.lookup e.contractId) (.err .noRows)
  failIf (2 ^ 63 ≤ row.paid + e.paid || 2 ^ 63 ≤ row.reserveContribAsset + e.reserve)
    (.err .outOfRange)
  writing fun db => { db with contracts := db.contracts.insert e.contractId (row.settled e height) }

/-! ## Messages -/

/-- The handler of a message, at the height of its block; the events of the registry have
none. -/
def handleMessage : Int64 × Event → DbM Unit
  | (_, .bondProvider provider service _ bondAbs) => handleBondProviderEvent provider service bondAbs
  | (_, .modProvider e) => handleModProviderEvent e
  | (_, .openContract e) => handleOpenContractEvent e
  | (height, .closeContract contractId _ _ _ _) => handleCloseContractEvent contractId height
  | (height, .settleContract e) => handleContractSettlementEvent e height
  | (_, _) => pure ()

/-- The database after one message; an error is logged and passed over, and `none` is a
panic. -/
def Database.recordMessage (db : Database) (e : Int64 × Event) : Option Database :=
  committed (logged (handleMessage e)) db

/-- The database after one message that is handled without an error. -/
def Database.writeMessage (db : Database) (e : Int64 × Event) : Option Database :=
  committed (handleMessage e) db

/-- The messages of one block or of several. -/
def Database.recordMessages (db : Database) (messages : List (Int64 × Event)) : Option Database :=
  Runs.run Database.recordMessage db messages

/-! ## Views -/

/-- `open_contracts_v`, when `indexer_status` has the given height. -/
def openContractsV (db : Database) (height : Int64) : List ℕ :=
  (db.contracts.entries.filter fun r =>
    r.2.settlementHeight = 0 && height.toInt < r.2.height + r.2.duration).map Sigma.fst

end Arkeo.Directory
