import Arkeo.Keeper
import Arkeo.Services
import Arkeo.Text
import Mathlib.Data.List.Sort

/-! # The sentinel's stores

The sentinel keeps contracts in memory (`MemStore`), filled by the events of the
chain and by asking a hub of the chain for what is missing, and on disk the
claims it can present for payment (`ClaimStore`) and the settings of contracts.

The hub's answers are not under the sentinel's control: `Hub` gives the decoded
answer to the n-th question, `none` when there is no answer that decodes.
-/
namespace Arkeo.Sentinel
open Text

/-- `types.Contract` as the sentinel holds it: the amounts of one that was put
together from an event or an answer may be nil. -/
structure CachedContract where
  provider : PubKey := ""
  service : ℤ := 0
  client : PubKey := ""
  delegate : PubKey := ""
  type : ContractType := .subscription
  height : Int64 := 0
  duration : Int64 := 0
  rate : String × Option ℤ := ("", none)
  deposit : Option ℤ := none
  paid : Option ℤ := none
  nonce : Int64 := 0
  settlementHeight : Int64 := 0
  id : ℕ := 0
  settlementDuration : Int64 := 0
  authorization : ContractAuthorization := .strict
  queriesPerMinute : Int64 := 0
  deriving DecidableEq, Repr

namespace CachedContract

/-- The fields the life cycle of a contract depends on. -/
def life (c : CachedContract) : Contract where
  client := c.client
  delegate := c.delegate
  type := c.type
  height := c.height
  duration := c.duration
  settlementHeight := c.settlementHeight
  settlementDuration := c.settlementDuration
  authorization := c.authorization

def isExpired (c : CachedContract) (height : Int64) : Bool := c.life.isExpired height

def isPayAsYouGo (c : CachedContract) : Bool := c.life.isPayAsYouGo

def isSubscription (c : CachedContract) : Bool := c.life.isSubscription

def isOpenAuthorization (c : CachedContract) : Bool := c.life.isOpenAuthorization

def getSpender (c : CachedContract) : PubKey := c.life.getSpender

end CachedContract

/-- The answer of the hub, decoded: numbers are strings, a field that is missing
has its zero value.  An error body has none of the fields. -/
structure FetchContract where
  id : String := ""
  providerPubKey : PubKey := ""
  service : ℤ := 0
  client : PubKey := ""
  delegate : PubKey := ""
  type : ContractType := .subscription
  height : String := ""
  duration : String := ""
  rate : String × Option ℤ := ("", none)
  deposit : String := ""
  paid : String := ""
  nonce : String := ""
  settlementHeight : String := ""
  authorization : ContractAuthorization := .strict
  queriesPerMinute : String := ""
  deriving DecidableEq, Repr

/-- `cosmos.NewIntFromString`: an optional sign and digits, within 256 bits. -/
def newIntFromString (s : String) : Option ℤ :=
  let digits (cs : List Char) : Option ℕ :=
    if cs.isEmpty then none
    else cs.foldl (fun n c => n.bind fun n => (digit? c).map fun d => 10 * n + d) (some 0)
  let bounded (n : ℕ) (i : ℤ) : Option ℤ := if n < 2 ^ 256 then some i else none
  match s.toList with
  | '-' :: cs => (digits cs).bind fun n => bounded n (-n)
  | '+' :: cs => (digits cs).bind fun n => bounded n n
  | cs => (digits cs).bind fun n => bounded n n

/-- The contract an answer stands for; errors in its numbers are dropped, and the
settlement duration is not read. -/
def FetchContract.contract (r : FetchContract) : CachedContract where
  id := (parseUint r.id).1
  provider := r.providerPubKey
  service := r.service
  client := r.client
  delegate := r.delegate
  type := r.type
  height := (parseInt r.height).1
  duration := (parseInt r.duration).1
  rate := r.rate
  deposit := newIntFromString r.deposit
  paid := newIntFromString r.paid
  nonce := (parseInt r.nonce).1
  settlementHeight := (parseInt r.settlementHeight).1
  authorization := r.authorization
  queriesPerMinute := (parseInt r.queriesPerMinute).1

/-- The decoded answer to the n-th question, which is for the contract with a
given key. -/
abbrev Hub := ℕ → ℕ → Option FetchContract

structure Claim where
  provider : PubKey := ""
  contractId : ℕ := 0
  spender : PubKey := ""
  nonce : Int64 := 0
  signature : String := ""
  claimed : Bool := false
  deriving DecidableEq, Repr

structure ContractConfiguration where
  contractId : ℕ
  lastTimeStamp : Int64 := 0
  whitelistIPAddresses : List String := []
  deriving DecidableEq, Repr

/-- The memory and the disk of the sentinel, and how often it has asked the hub. -/
structure State where
  db : AList (fun _ : ℕ => CachedContract) := ∅
  blockHeight : Int64 := 0
  claims : AList (fun _ : ℕ => Claim) := ∅
  configs : AList (fun _ : ℕ => ContractConfiguration) := ∅
  fetches : ℕ := 0

/-! ## MemStore -/

/-- `MemStore.fetchContract`. -/
def fetchContract (hub : Hub) (key : ℕ) (s : State) : Option CachedContract × State :=
  ((hub s.fetches key).map FetchContract.contract, { s with fetches := s.fetches + 1 })

/-- The fall-through of `MemStore.Get`: an answer that is not expired is kept under
the key that was asked for. -/
def fetchAndCache (hub : Hub) (key : ℕ) (s : State) : Option CachedContract × State :=
  match fetchContract hub key s with
  | (none, s') => (none, s')
  | (some c, s') =>
      (some c, if c.isExpired s.blockHeight then s' else { s' with db := s'.db.insert key c })

/-- `MemStore.Get`: the contract from memory unless it is missing or expired. -/
def memStoreGet (hub : Hub) (key : ℕ) (s : State) : Option CachedContract × State :=
  match s.db.lookup key with
  | some c => if c.isExpired s.blockHeight then fetchAndCache hub key s else (some c, s)
  | none => fetchAndCache hub key s

/-- `MemStore.Put`. -/
def memStorePut (c : CachedContract) (s : State) : State :=
  { s with db := if c.isExpired s.blockHeight then s.db.erase c.id else s.db.insert c.id c }

/-! ## ClaimStore -/

/-- `NewClaim`. -/
def newClaim (contractId : ℕ) (spender : PubKey) (nonce : Int64) (signature : String) : Claim where
  contractId := contractId
  spender := spender
  nonce := nonce
  signature := signature

/-- `ClaimStore.Set`: under the claim's own key. -/
def claimStoreSet (c : Claim) (s : State) : State :=
  { s with claims := s.claims.insert c.contractId c }

/-- `ClaimStore.Get`: the zero claim when there is none. -/
def claimStoreGet (key : ℕ) (s : State) : Claim := (s.claims.lookup key).getD {}

/-- `ClaimStore.Remove`. -/
def claimStoreRemove (key : ℕ) (s : State) : State := { s with claims := s.claims.erase key }

/-- `ClaimStore.List`: in the order of the keys as strings. -/
def claimStoreList (s : State) : List Claim :=
  (s.claims.entries.insertionSort fun a b => toString a.1 ≤ toString b.1).map Sigma.snd

theorem mem_claimStoreList {s : State} {c : Claim} :
    c ∈ claimStoreList s ↔ ∃ key, s.claims.lookup key = some c := by
  rw [claimStoreList, List.mem_map]
  constructor
  · rintro ⟨⟨key, d⟩, hmem, rfl⟩
    exact ⟨key, AList.mem_lookup_iff.mpr (List.mem_insertionSort _ |>.mp hmem)⟩
  · rintro ⟨key, h⟩
    exact ⟨⟨key, c⟩, List.mem_insertionSort _ |>.mpr (AList.mem_lookup_iff.mp h), rfl⟩

/-! ## ContractConfigurationStore -/

/-- `ContractConfigurationStore.Get`: the default settings when there are none. -/
def configGet (id : ℕ) (s : State) : ContractConfiguration :=
  (s.configs.lookup id).getD { contractId := id }

/-- `ContractConfigurationStore.Set`. -/
def configSet (conf : ContractConfiguration) (s : State) : State :=
  { s with configs := s.configs.insert conf.contractId conf }

end Arkeo.Sentinel
