import Arkeo.Sentinel.Auth
import Arkeo.Sentinel.Stores
import Arkeo.World

/-! # The proxy

What the sentinel does with a request (`auth`, `paidTier`), with the provider's own
calls (`handleOpenClaims`, `handleMarkClaimed`, `handleContract`) and with the
events of the chain.

The verdict of the rate limiter depends on the clock; it comes with the request.
The disk does not fail.  A panic aborts the request, with what was written before
it kept.
-/
namespace Arkeo.Sentinel
open Exec Text

structure Config where
  providerPubKey : PubKey
  sourceChain : String
  /-- The registry of services, by lower-case name. -/
  serviceIDs : String → Option ℤ

/-- The errors of `paidTier`. -/
inductive TierError where
  | internalServerError
  | openAContract
  | contractSpent
  | rateLimited
  | invalidClientPubkey
  | invalidSignature
  | badNonce (got stored : Int64)
  deriving DecidableEq, Repr

/-- The status code an error is answered with. -/
def TierError.code : TierError → ℕ
  | .internalServerError => 500
  | .openAContract => 402
  | .contractSpent => 402
  | .rateLimited => 429
  | .invalidClientPubkey => 401
  | .invalidSignature => 401
  | .badNonce _ _ => 400

/-- What a request that is served is charged to; the nonce counts only for a
contract that is not open. -/
structure Charge where
  contractId : ℕ
  nonce : Int64
  isOpen : Bool
  deriving DecidableEq, Repr

abbrev Tier := EStateM (Fault TierError) State

/-- `Int.Int64()`; `none` where it panics, on a nil or too large number. -/
def int64? (n : Option ℤ) : Option Int64 :=
  n.bind fun n => if -2 ^ 63 ≤ n ∧ n < 2 ^ 63 then some (Int64.ofInt n) else none

/-- A request without a key is taken to come from the contract's client. -/
def ArkAuth.inferSpender (aa : ArkAuth) (c : CachedContract) : ArkAuth :=
  if aa.spender = "" then { aa with spender := c.client } else aa

section
variable (cr : Crypto) (cfg : Config) (hub : Hub)

/-! ## The paid tier -/

/-- A pay-as-you-go contract has to cover the calls up to the nonce; the product is
taken in 64 bits. -/
def checkDeposit (c : CachedContract) (nonce : Int64) : Tier Unit :=
  if c.isPayAsYouGo then do
    let deposit ← ofOption c.deposit (.err .contractSpent)
    let rate ← ofOption (int64? c.rate.2) .panic
    failIf (deposit < (nonce * rate).toInt) (.err .contractSpent)
  else pure ()

/-- The tests that every request has to pass. -/
def checkContract (c : CachedContract) (aa : ArkAuth) (limited : Bool) : Tier Unit := do
  let height ← reading State.blockHeight
  failIf (c.isExpired height) (.err .openAContract)
  checkDeposit c aa.nonce
  failIf limited (.err .rateLimited)

def checkSignature (aa : ArkAuth) : Tier Unit := do
  let pk ← ofOption (cr.getPubKeyFromBech32 aa.spender) (.err .invalidClientPubkey)
  failIf (!verifyRequest cr pk aa.contractId aa.nonce aa.signature) (.err .invalidSignature)

/-- The claim a request becomes; one that is stored keeps its contract id. -/
def claimFor (aa : ArkAuth) (stored : Option Claim) : Claim :=
  let sig := hexEncode aa.signature
  { stored.getD (newClaim aa.contractId aa.spender aa.nonce sig) with
    provider := cfg.providerPubKey, spender := aa.spender, nonce := aa.nonce, signature := sig
    claimed := false }

/-- The nonce has to exceed the stored one; the new claim takes its place. -/
def storeClaim (aa : ArkAuth) : Tier Unit := do
  let stored ← reading fun s => s.claims.lookup aa.contractId
  match stored with
  | some claim => failIf (claim.nonce ≥ aa.nonce) (.err (.badNonce aa.nonce claim.nonce))
  | none => pure ()
  writing (claimStoreSet (claimFor cfg aa stored))

/-- The usage of the contract goes to memory and is logged, which panics on amounts
that are nil or too large. -/
def logUsage (c : CachedContract) (nonce : Int64) : Tier Unit := do
  writing (memStorePut { c with nonce := nonce })
  let _ ← ofOption (int64? c.rate.2) .panic
  let _ ← ofOption (int64? c.deposit) .panic

/-- A request on a contract that is not open is paid for with a claim. -/
def payByClaim (c : CachedContract) (aa : ArkAuth) : Tier Charge := do
  checkSignature cr aa
  storeClaim cfg aa
  logUsage c aa.nonce
  pure { contractId := aa.contractId, nonce := aa.nonce, isOpen := false }

/-- The rest of `paidTier`, once the contract is found. -/
def chargeContract (c : CachedContract) (aa : ArkAuth) (limited : Bool) : Tier Charge := do
  checkContract c aa limited
  if c.isOpenAuthorization then
    pure { contractId := aa.contractId, nonce := aa.nonce, isOpen := true }
  else payByClaim cr cfg c aa

def paidTier (aa : ArkAuth) (limited : Bool) : Tier Charge := do
  let found ← fun s => .ok (memStoreGet hub aa.contractId s).1 (memStoreGet hub aa.contractId s).2
  let contract ← ofOption found (.err .internalServerError)
  chargeContract cr cfg contract (aa.inferSpender contract) limited

/-! ## Requests -/

structure Request where
  isOptions : Bool := false
  /-- The header `arkauth`. -/
  arkauth : String := ""
  /-- The arguments of the query, in order. -/
  query : List (String × String) := []
  xRealIP : String := ""
  xForwardedFor : String := ""
  remoteAddr : String := ""
  /-- The header `arkservice`. -/
  arkservice : String := ""
  path : String := ""
  /-- The rate limiter refuses the request. -/
  limited : Bool := false
  deriving DecidableEq, Repr

inductive Response where
  | preflight
  | refused (code : ℕ)
  | aborted
  | free
  | paid (charge : Charge)
  deriving DecidableEq, Repr

namespace Request

def getRemoteAddr (r : Request) : String :=
  if r.xRealIP ≠ "" then r.xRealIP
  else if r.xForwardedFor ≠ "" then r.xForwardedFor
  else before r.remoteAddr ':'

/-- `args.Get`. -/
def arg (r : Request) (key : String) : String := (r.query.lookup key).getD ""

/-- The header if there is one, else the argument; a request with neither has the
zero credentials. -/
def fetchArkAuth (r : Request) : Option ArkAuth :=
  if r.arkauth ≠ "" then parseArkAuth cr r.arkauth cfg.sourceChain
  else match r.query.lookup "arkauth" with
    | some raw => parseArkAuth cr raw cfg.sourceChain
    | none => some {}

/-- The service a request is for: the header, or the first segment of the path. -/
def serviceName (r : Request) : String :=
  if r.arkservice ≠ "" then r.arkservice else ((split r.path '/')[1]?).getD ""

/-- The contract id of a request whose credentials cannot be read. -/
def fallbackId (r : Request) : ℕ :=
  let id := r.arg "contract_id"
  (parseUint (if id = "" then before (r.arg "arkauth") ':' else id)).1

end Request

def isWhitelisted (c : CachedContract) (r : Request) (s : State) : Bool :=
  decide (c.client ≠ "") &&
    (configGet c.id s).whitelistIPAddresses.any fun ip =>
      LetterCase.equalFold (before r.getRemoteAddr ':') ip

/-- A service the registry does not know is let through. -/
def serviceMatches (c : CachedContract) (r : Request) : Bool :=
  match cfg.serviceIDs (toLower r.serviceName) with
  | some id => id = c.service
  | none => true

/-- The way of a request whose credentials cannot be read: open contracts serve
whitelisted addresses. -/
def authUnreadable (r : Request) (s : State) : Response × State :=
  match memStoreGet hub r.fallbackId s with
  | (some c, s') =>
      if isWhitelisted c r s' && c.isOpenAuthorization then
        (.paid { contractId := r.fallbackId, nonce := 0, isOpen := true }, s')
      else (.refused 400, s')
  | (none, s') => (.refused 400, s')

/-- The contract of the credentials; contract `0` is not looked up. -/
def contractOf (aa : ArkAuth) (s : State) : Option CachedContract × State :=
  if 0 < aa.contractId then memStoreGet hub aa.contractId s else (some {}, s)

def authPaid (aa : ArkAuth) (c : CachedContract) (r : Request) (s : State) : Response × State :=
  if serviceMatches cfg c r then
    match paidTier cr cfg hub aa r.limited s with
    | .ok charge s' => (.paid charge, s')
    | .error (.err e) s' => (.refused e.code, s')
    | .error .panic s' => (.aborted, s')
  else (.refused 401, s)

def authReadable (aa : ArkAuth) (r : Request) (s : State) : Response × State :=
  match contractOf hub aa s with
  | (found, s) =>
      let c := found.getD {}
      if c.id ≠ 0 && c.isSubscription && c.isExpired s.blockHeight then (.refused 402, s)
      else if c.isPayAsYouGo && aa.signature.isEmpty then (.refused 401, s)
      else if found.isSome && (aa.validate cr cfg.providerPubKey ||
          (c.isOpenAuthorization && isWhitelisted c r s)) then authPaid cr cfg hub aa c r s
      else if c.id ≠ 0 && c.isPayAsYouGo then (.refused 401, s)
      else if r.limited then (.refused 429, s)
      else (.free, s)

/-- `Proxy.auth`. -/
def auth (r : Request) (s : State) : Response × State :=
  if r.isOptions then (.preflight, s)
  else match r.fetchArkAuth cr cfg with
    | none => authUnreadable hub r s
    | some aa => authReadable cr cfg hub aa r s

/-! ## The provider's calls -/

/-- One pass of the loop of `handleOpenClaims`: a claim of an expired contract is
removed. -/
def visitClaim (acc : List Claim × State) (claim : Claim) : List Claim × State :=
  if claim.claimed then acc
  else match memStoreGet hub claim.contractId acc.2 with
    | (none, s) => (acc.1, s)
    | (some c, s) =>
        if c.isExpired s.blockHeight then (acc.1, claimStoreRemove claim.contractId s)
        else (acc.1 ++ [claim], s)

def handleOpenClaims (s : State) : List Claim × State :=
  (claimStoreList s).foldl (visitClaim hub) ([], s)

/-- The nonce of the call is unsigned. -/
def handleMarkClaimed (contractId nonce : ℕ) (s : State) : State :=
  match (claimStoreList s).find? fun c =>
      c.contractId = contractId && c.nonce.toUInt64.toNat = nonce with
  | some c => if c.claimed then s else claimStoreSet { c with claimed := true } s
  | none => s

inductive Method where
  | get
  /-- The new whitelist, `none` when the body cannot be read. -/
  | post (whitelist : Option (List String))
  | other
  deriving DecidableEq, Repr

/-- The settings of a contract, shown or changed for its client; the result is the
status code. -/
def handleContract (id raw : String) (m : Method) (s : State) : ℕ × State :=
  match read (parseUint id), parseContractAuth raw with
  | some id, some auth =>
      let conf := configGet id s
      if raw = "" then (400, s)
      else match memStoreGet hub conf.contractId s with
        | (none, s) => (404, s)
        | (some c, s) =>
            match auth.validate cr conf.lastTimeStamp c.client with
            | .error _ => (400, s)
            | .ok () =>
                let conf := { conf with lastTimeStamp := auth.timestamp }
                let s := configSet conf s
                match m with
                | .get => (200, s)
                | .post none => (400, s)
                | .post (some ips) => (200, configSet { conf with whitelistIPAddresses := ips } s)
                | .other => (400, s)
  | _, _ => (400, s)

/-! ## The events of the chain -/

/-- What the sentinel reads of a settlement event. -/
structure Settlement where
  provider : PubKey
  contractId : ℕ
  nonce : Int64
  deriving DecidableEq, Repr

/-- `handleContractSettlementEvent`: the claim that was paid is marked. -/
def handleSettlement (e : Settlement) (s : State) : State :=
  if e.provider = cfg.providerPubKey then
    let curr := claimStoreGet e.contractId s
    if curr.nonce = e.nonce then claimStoreSet { curr with claimed := true } s else s
  else s

/-- `handleNewBlockHeaderEvent`. -/
def handleNewBlock (height : Int64) (es : List Settlement) (s : State) : State :=
  es.foldl (fun s e => handleSettlement cfg e s) { s with blockHeight := height }

def handleOpenContract (e : EventOpenContract) (s : State) : State :=
  if e.provider ≠ cfg.providerPubKey ∨ e.deposit = 0 then s
  else
    memStorePut
      { provider := e.provider, service := serviceLookup e.service, client := e.client
        delegate := e.delegate, type := e.type, height := e.height, duration := e.duration
        rate := (e.rate.denom, some e.rate.amount), deposit := some e.deposit, id := e.contractId
        settlementDuration := e.settlementDuration, authorization := e.authorization
        queriesPerMinute := e.queriesPerMinute } s

def handleCloseContract (contractId : ℕ) (provider : PubKey) (service : String)
    (client delegate : PubKey) (s : State) : State :=
  if provider ≠ cfg.providerPubKey then s
  else
    memStorePut
      { provider := provider, service := serviceLookup service, client := client
        delegate := delegate, id := contractId } s

/-! ## Runs -/

inductive Action where
  | request (r : Request)
  | openClaims
  | markClaimed (contractId nonce : ℕ)
  | manage (id raw : String) (m : Method)
  | opened (e : EventOpenContract)
  | closed (contractId : ℕ) (provider : PubKey) (service : String) (client delegate : PubKey)
  | settled (e : Settlement)
  | newBlock (height : Int64) (es : List Settlement)
  | restart
  deriving DecidableEq, Repr

/-- The sentinel and the paid requests it has handed to its backend. -/
structure World where
  state : State := {}
  served : List Charge := []

/-- What a restart keeps: the disk. -/
def State.restarted (s : State) : State :=
  { s with db := ∅, blockHeight := 0 }

def step (w : World) : Action → Option World
  | .request r =>
      let out := auth cr cfg hub r w.state
      some
        { state := out.2
          served := match out.1 with
            | .paid charge => w.served ++ [charge]
            | _ => w.served }
  | .openClaims => some { w with state := (handleOpenClaims hub w.state).2 }
  | .markClaimed id nonce => some { w with state := handleMarkClaimed id nonce w.state }
  | .manage id raw m => some { w with state := (handleContract cr hub id raw m w.state).2 }
  | .opened e => some { w with state := handleOpenContract cfg e w.state }
  | .closed id provider service client delegate =>
      some { w with state := handleCloseContract cfg id provider service client delegate w.state }
  | .settled e => some { w with state := handleSettlement cfg e w.state }
  | .newBlock height es => some { w with state := handleNewBlock cfg height es w.state }
  | .restart => some { w with state := w.state.restarted }

end

/-! ## A concrete sentinel

The provider of the sample chain watches the pay-as-you-go contract that the
client has opened; a stranger has a key of its own. -/

namespace Sample
open Arkeo.Sample

def stranger : Identity where
  pubKey := "arkeopub1addwnpepqgamjsu8gsjwwvr4v2vygamurh3twhhsn6d90ey2mz6054ylzyuwyjqxjd7"
  key := [2, 59, 185, 67, 135, 68, 36, 231, 48, 117, 98, 152, 68, 119, 124, 29, 226, 183, 94, 240, 158,
      154, 87, 228, 138, 216, 180, 250, 84, 159, 17, 56, 226]
  addr := [34, 225, 10, 59, 125, 72, 223, 101, 227, 208, 45, 99, 166, 72, 103, 50, 39, 249, 105, 220]
  account := "arkeo1ytss5wmafr0ktc7s9436vjr8xgnlj6wuz0fugk"

/-- The client's signature over `2:5:`. -/
def clientSignature : Bytes :=
  [14, 199, 246, 215, 45, 209, 101, 91, 162, 83, 152, 87, 110, 189, 11, 12, 232, 196, 19, 100,
    231, 8, 245, 90, 79, 223, 196, 173, 88, 183, 121, 39, 85, 164, 79, 218, 31, 161, 242, 14, 149,
    69, 224, 22, 23, 42, 248, 1, 244, 0, 254, 80, 210, 212, 140, 28, 56, 101, 181, 146, 175, 158,
    246, 73]

/-- The stranger's signature over `2:7:`. -/
def strangerSignature : Bytes :=
  [172, 241, 13, 0, 44, 141, 174, 89, 212, 157, 81, 90, 126, 164, 11, 12, 194, 185, 142, 89, 16,
    114, 121, 220, 62, 58, 42, 85, 181, 3, 88, 255, 106, 223, 144, 123, 201, 177, 182, 79, 190,
    234, 21, 44, 75, 170, 65, 138, 89, 77, 128, 90, 57, 60, 161, 162, 48, 102, 146, 231, 148, 127,
    219, 19]

/-- The client's credentials, for a settings request at time 5 as well as for a
query with nonce 5. -/
def clientHeader : String :=
  "2:5:0ec7f6d72dd1655ba25398576ebd0b0ce8c41364e708f55a4fdfc4ad58b77927" ++
    "55a44fda1fa1f20e9545e016172af801f400fe50d2d48c1c3865b592af9ef649"

/-- The stranger's credentials for a query on the client's contract. -/
def strangerHeader : String :=
  "2:" ++ stranger.pubKey ++
    ":7:acf10d002c8dae59d49d515a7ea40b0cc2b98e59107279dc3e3a2a55b50358ff" ++
    "6adf907bc9b1b64fbeea152c4baa418a594d805a393ca1a2306692e7947fdb13"

def crypto : Crypto :=
  Crypto.known [provider, client, stranger]
    [(client.key, [50, 58, 53, 58], clientSignature),
     (stranger.key, [50, 58, 55, 58], strangerSignature)]
    [([50, 58, 53, 58],
      [16, 200, 134, 94, 21, 201, 166, 37, 149, 158, 108, 123, 155, 78, 107, 175, 179, 119, 97,
        24, 67, 186, 250, 37, 55, 90, 75, 113, 197, 204, 175, 242]),
     ([50, 58, 53, 58, 97, 114, 107, 101, 111],
      [161, 78, 234, 249, 79, 249, 42, 88, 209, 85, 236, 211, 160, 118, 148, 224, 193, 104, 220,
        155, 62, 241, 56, 59, 219, 64, 136, 134, 120, 173, 83, 142]),
     ([50, 58, 55, 58],
      [57, 26, 114, 161, 70, 9, 165, 223, 174, 158, 128, 83, 48, 229, 162, 242, 245, 177, 86, 141,
        239, 19, 173, 234, 169, 155, 105, 97, 104, 167, 135, 157]),
     ([50, 58, 55, 58, 97, 114, 107, 101, 111],
      [151, 23, 50, 202, 53, 180, 163, 103, 246, 69, 40, 118, 70, 248, 64, 114, 28, 202, 61, 50,
        205, 244, 83, 89, 199, 167, 43, 87, 178, 77, 57, 216])]
    [([50, 58, 53, 58],
      [125, 209, 102, 14, 128, 139, 77, 164, 16, 232, 76, 64, 167, 39, 111, 91, 25, 202, 255, 76,
        227, 245, 32, 93, 199, 92, 182, 197, 70, 216, 214, 146]),
     ([25, 69, 116, 104, 101, 114, 101, 117, 109, 32, 83, 105, 103, 110, 101, 100, 32, 77, 101,
       115, 115, 97, 103, 101, 58, 10, 52, 50, 58, 53, 58],
      [167, 152, 1, 59, 101, 229, 234, 165, 78, 22, 130, 45, 136, 81, 24, 230, 22, 106, 26, 148,
        94, 39, 79, 245, 223, 190, 114, 40, 218, 5, 182, 55]),
     ([50, 58, 55, 58],
      [144, 225, 150, 134, 78, 97, 170, 127, 143, 111, 69, 63, 222, 75, 188, 169, 240, 93, 16, 87,
        204, 127, 90, 109, 118, 246, 74, 237, 255, 100, 109, 32]),
     ([25, 69, 116, 104, 101, 114, 101, 117, 109, 32, 83, 105, 103, 110, 101, 100, 32, 77, 101,
       115, 115, 97, 103, 101, 58, 10, 52, 50, 58, 55, 58],
      [195, 238, 72, 179, 162, 65, 128, 150, 239, 71, 43, 235, 123, 172, 32, 239, 244, 161, 94,
        115, 68, 128, 96, 82, 71, 238, 94, 23, 60, 176, 127, 237])]

def config : Config where
  providerPubKey := provider.pubKey
  sourceChain := "arkeo"
  serviceIDs _ := none

/-- The event of the second contract of the sample chain. -/
def opening : EventOpenContract where
  provider := provider.pubKey
  contractId := 2
  service := service
  client := client.pubKey
  delegate := client.pubKey
  type := .payAsYouGo
  height := 1
  duration := 1
  rate := ⟨denom, 10⟩
  openCost := 20000000
  deposit := 100
  settlementDuration := 1
  authorization := .strict
  queriesPerMinute := 1

end Sample

end Arkeo.Sentinel
