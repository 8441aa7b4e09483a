import Arkeo.MsgServer
import Arkeo.Runs

/-! # Runs of the chain

A world is the height of the block being built, the store, and the messages that
were accepted so far.  A run delivers messages in any order, lets users send
coins to any account, and ends blocks; a rejected message changes nothing, and a
panic of the end blocker halts the chain.
-/
namespace Arkeo
open Exec

structure World where
  ctx : Context
  chain : ChainState
  /-- The accepted messages, the last one last. -/
  accepted : List Msg := []

/-- What can happen next. -/
inductive Action where
  | msg (m : Msg)
  /-- A user's transfer, which the module takes no part in. -/
  | send (src : Bytes) (dst : Account) (coin : Coin)
  | endBlock
  deriving DecidableEq, Repr

/-- The context of the next block, while the heights leave room. -/
def Context.next (ctx : Context) : Option Context :=
  if h : ctx.blockHeight.toInt + 1 + (fetchConfig .maxContractLength).toInt < 2 ^ 63 then
    some
      { blockHeight := ctx.blockHeight + 1
        chainID := ctx.chainID
        authority := ctx.authority
        pos := by
          have hc : (fetchConfig .maxContractLength).toInt = 5256000 := by decide
          have hp := ctx.pos
          rw [Int64.toInt_add, show (1 : Int64).toInt = 1 by decide, Int.bmod_eq_of_le] <;> omega
        fits := by
          have hc : (fetchConfig .maxContractLength).toInt = 5256000 := by decide
          have hp := ctx.pos
          rw [Int64.toInt_add, show (1 : Int64).toInt = 1 by decide, Int.bmod_eq_of_le] <;> omega }
  else none

/-- Two worlds with the same context and the same tables, entry by entry. -/
def World.same (w w' : World) : Bool :=
  decide (w.ctx.blockHeight = w'.ctx.blockHeight ∧ w.ctx.chainID = w'.ctx.chainID ∧
    w.ctx.authority = w'.ctx.authority ∧ w.accepted = w'.accepted ∧
    w.chain.contracts.entries = w'.chain.contracts.entries ∧
    w.chain.expirationSets.entries = w'.chain.expirationSets.entries ∧
    w.chain.userSets.entries = w'.chain.userSets.entries ∧
    w.chain.nextContractId = w'.chain.nextContractId ∧
    w.chain.providers.entries = w'.chain.providers.entries ∧
    w.chain.services.entries = w'.chain.services.entries ∧
    w.chain.serviceIds.entries = w'.chain.serviceIds.entries ∧
    w.chain.bank.entries = w'.chain.bank.entries ∧ w.chain.journal = w'.chain.journal ∧
    w.chain.events = w'.chain.events)

theorem World.eq_of_same {w w' : World} (h : w.same w' = true) : w = w' := by
  obtain ⟨⟨_, _, _, _, _⟩, ⟨⟨_, _⟩, ⟨_, _⟩, ⟨_, _⟩, _, ⟨_, _⟩, ⟨_, _⟩, ⟨_, _⟩, ⟨_, _⟩, _, _⟩, _⟩ := w
  obtain ⟨⟨_, _, _, _, _⟩, ⟨⟨_, _⟩, ⟨_, _⟩, ⟨_, _⟩, _, ⟨_, _⟩, ⟨_, _⟩, ⟨_, _⟩, ⟨_, _⟩, _, _⟩, _⟩ := w'
  obtain ⟨rfl, rfl, rfl, rfl, rfl, rfl, rfl, rfl, rfl, rfl, rfl, rfl, rfl, rfl⟩ :=
    of_decide_eq_true h
  rfl

variable (cr : Crypto)

def step (w : World) : Action → Option World
  | .msg m =>
      match deliver cr w.ctx m w.chain with
      | some s => some { w with chain := s, accepted := w.accepted ++ [m] }
      | none => some w
  | .send src dst coin =>
      if 0 < coin.amount ∧ coin.amount ≤ w.chain.balance (.user src) coin.denom then
        some { w with chain := w.chain.sent (.user src) dst coin .other }
      else some w
  | .endBlock =>
      match endBlock cr w.ctx w.chain with
      | .ok _ s => w.ctx.next.map fun ctx => { w with ctx := ctx, chain := s }
      | .error _ _ => none

/-- The chain before the first message: no contract, no provider, any registry of
services and any balances the bank can hold. -/
structure Genesis (w : World) : Prop where
  contracts : w.chain.contracts = ∅
  expirationSets : w.chain.expirationSets = ∅
  userSets : w.chain.userSets = ∅
  nextContractId : w.chain.nextContractId = 0
  providers : w.chain.providers = ∅
  journal : w.chain.journal = []
  events : w.chain.events = []
  accepted : w.accepted = []
  nonneg : w.chain.bank.Nonneg
  supply : ∀ d, w.chain.bank.supply d < 2 ^ 256

/-! ## A concrete chain

One provider and one client with real keys, and a registry with one service: the
chain on which the witnesses run. -/

/-- A key as the codecs see it: the bech32 form of the key and its bytes, the
address and its bech32 form. -/
structure Identity where
  pubKey : String
  key : Bytes
  addr : Bytes
  account : String

/-- A hash function with known digests; on other inputs it marks the input itself. -/
def digest (table : List (Bytes × Bytes)) (mark : UInt8) (m : Bytes) : Bytes :=
  ((table.find? fun d => d.1 = m).map Prod.snd).getD (mark :: m)

theorem digest_injective {table : List (Bytes × Bytes)} {mark : UInt8}
    (hn : (table.map Prod.snd).Nodup) (hm : ∀ d ∈ table, d.2.head? ≠ some mark) :
    Function.Injective (digest table mark) := by
  intro m m' h
  unfold digest at h
  cases hf : table.find? fun d => d.1 = m with
  | none =>
    cases hf' : table.find? fun d => d.1 = m' with
    | none =>
      rw [hf, hf'] at h
      exact (List.cons.inj h).2
    | some d' =>
      rw [hf, hf'] at h
      refine absurd ?_ (hm d' (List.mem_of_find?_eq_some hf'))
      rw [show d'.2 = mark :: m from h.symm]
      rfl
  | some d =>
    have hd := List.mem_of_find?_eq_some hf
    cases hf' : table.find? fun d => d.1 = m' with
    | none =>
      rw [hf, hf'] at h
      refine absurd ?_ (hm d hd)
      rw [show d.2 = mark :: m' from h]
      rfl
    | some d' =>
      rw [hf, hf'] at h
      have hdd : d = d' := List.inj_on_of_nodup_map hn hd (List.mem_of_find?_eq_some hf') h
      have h1 := List.find?_some hf
      have h2 := List.find?_some hf'
      simp only [decide_eq_true_eq] at h1 h2
      rw [← h1, ← h2, hdd]

/-- The codecs and the signature scheme on known identities, signatures and
digests. -/
def Crypto.known (ids : List Identity) (signatures : List (Bytes × Bytes × Bytes))
    (digests keccaks : List (Bytes × Bytes)) : Crypto where
  getPubKeyFromBech32 s := (ids.find? fun i => i.pubKey = s).map Identity.key
  bech32ifyPubKey k := ((ids.find? fun i => i.key = k).map Identity.pubKey).getD ""
  accAddressFromBech32 s := (ids.find? fun i => i.account = s).map Identity.addr
  address k := ((ids.find? fun i => i.key = k).map Identity.addr).getD []
  verifySignature k m sig := signatures.contains (k, m, sig)
  sha256 := digest digests 0
  keccak256 := digest keccaks 1

namespace Sample

def provider : Identity where
  pubKey := "arkeopub1addwnpepqva40m3526vazvy2kq2t376umw89e4755pt7jqvmmk07llywathuvaecvkh"
  key := [3, 59, 87, 238, 52, 86, 153, 209, 48, 138, 176, 20, 184, 251, 92, 219, 142, 92, 215, 212,
    160, 87, 233, 1, 155, 221, 159, 239, 252, 142, 234, 239, 198]
  addr := [79, 94, 200, 96, 6, 88, 15, 250, 133, 4, 43, 51, 221, 237, 98, 39, 113, 147, 230, 21]
  account := "arkeo1fa0vscqxtq8l4pgy9veammtzyace8es485x2vj"

def client : Identity where
  pubKey := "arkeopub1addwnpepqvqydmqh4mmhaczxu85ecx6czg68r83xl8sd05rgpf2zag6lengpg3vdnsr"
  key := [3, 0, 70, 236, 23, 174, 247, 126, 224, 70, 225, 233, 156, 27, 88, 18, 52, 113, 158, 38,
    249, 224, 215, 208, 104, 10, 84, 46, 163, 95, 204, 208, 20]
  addr := [89, 203, 87, 174, 109, 21, 42, 78, 201, 127, 197, 89, 229, 0, 113, 4, 98, 242, 102, 124]
  account := "arkeo1t8940tndz54yajtlc4v72qr3q330yenuknhdpm"

def service : String := "btc-mainnet-fullnode"

/-- Both users hold coins; the module accounts are empty. -/
def bank : Ledger Account String :=
  Ledger.credit (Ledger.credit ∅ (.user provider.addr) denom 1000000000) (.user client.addr) denom
    1000000000

def genesis : World where
  ctx := { blockHeight := 1, chainID := "arkeo", pos := by decide, fits := by decide }
  chain :=
    { services := AList.insert service { id := 10, name := service } ∅
      bank := bank }

theorem genesis_ok : Genesis genesis where
  contracts := rfl
  expirationSets := rfl
  userSets := rfl
  nextContractId := rfl
  providers := rfl
  journal := rfl
  events := rfl
  accepted := rfl
  nonneg a d := by
    change 0 ≤ Ledger.bal bank a d
    rw [bank, Ledger.bal_credit, Ledger.bal_credit]
    have h0 : Ledger.bal (∅ : Ledger Account String) a d = 0 := rfl
    rw [h0]
    split <;> split <;> omega
  supply d := by
    change Ledger.supply bank d < 2 ^ 256
    rw [bank, Ledger.supply_credit, Ledger.supply_credit]
    have h0 : Ledger.supply (∅ : Ledger Account String) d = 0 := AList.sumOver_empty _
    rw [h0]
    split <;> omega

/-- The provider bonds and offers both types of contract. -/
def setup : List Action :=
  [.msg (.bondProvider
      { creator := provider.account, provider := provider.pubKey, service := service
        bond := 100000000 }),
   .msg (.modProvider
      { creator := provider.account, provider := provider.pubKey, service := service
        metadataUri := "", metadataNonce := 1, status := .online, minContractDuration := 1
        maxContractDuration := 100, subscriptionRate := [⟨denom, 10⟩]
        payAsYouGoRate := [⟨denom, 10⟩], settlementDuration := 1 })]

/-- The client opens a contract of one block's duration. -/
def openMsg (type : ContractType) (deposit : ℤ) : MsgOpenContract where
  creator := client.account
  provider := provider.pubKey
  service := service
  client := client.pubKey
  delegate := ""
  contractType := type
  duration := 1
  settlementDuration := 1
  rate := ⟨denom, 10⟩
  deposit := deposit
  authorization := .strict
  queriesPerMinute := 1

/-- The client's signature over `2:3:arkeo`. -/
def signature : Bytes :=
  [8, 233, 134, 78, 100, 145, 137, 243, 98, 165, 88, 112, 246, 195, 118, 70, 8, 196, 135, 209, 254,
    132, 217, 121, 229, 29, 107, 86, 118, 166, 36, 144, 123, 69, 122, 103, 71, 68, 148, 74, 57, 51,
    1, 147, 47, 143, 79, 194, 123, 158, 26, 34, 163, 91, 164, 243, 72, 72, 2, 57, 163, 45, 181, 175]

def crypto : Crypto :=
  Crypto.known [provider, client]
    [(client.key, [50, 58, 51, 58, 97, 114, 107, 101, 111], signature)] [] []

/-- A subscription and a pay-as-you-go contract, of which three calls are claimed,
run to their ends: the next block to end is the last of the settlement period. -/
def lifetimes : List Action :=
  setup ++
    [.msg (.openContract (openMsg .subscription 10)),
     .msg (.openContract (openMsg .payAsYouGo 100)),
     .msg (.claimContractIncome
      { creator := provider.account, contractId := 2, nonce := 3, signature := signature }),
     .endBlock, .endBlock]

/-! The world after `setup`, and after both contracts are opened, written out: a run that
begins so is evaluated from there. -/

def isMsg : Action → Option Msg
  | .msg m => some m
  | .send _ _ _ | .endBlock => none

def providerRecord : Provider where
  pubKey := provider.pubKey
  service := 10
  metadataNonce := 1
  status := .online
  minContractDuration := 1
  maxContractDuration := 100
  subscriptionRate := [⟨denom, 10⟩]
  payAsYouGoRate := [⟨denom, 10⟩]
  bond := 100000000
  lastUpdate := 1
  settlementDuration := 1

def offering : World where
  ctx := genesis.ctx
  chain := { genesis.chain with
    providers := AList.insert
      ("ARKEOPUB1ADDWNPEPQVA40M3526VAZVY2KQ2T376UMW89E4755PT7JQVMMK07LLYWATHUVAECVKH", 10)
      providerRecord ∅
    bank := AList.insert (.module .provider, denom) 100000000
      (AList.insert (.user provider.addr, denom) 900000000
      (AList.insert (.user client.addr, denom) 1000000000 ∅))
    journal := [⟨.user provider.addr, .module .provider, ⟨denom, 100000000⟩, .bond⟩]
    events :=
      [(1, .bondProvider provider.pubKey service 100000000 100000000),
       (1, .modProvider
        { creator := provider.addr, provider := provider.pubKey, service := service
          metadataUri := "", metadataNonce := 1, status := .online, minContractDuration := 1
          maxContractDuration := 100, subscriptionRate := [⟨denom, 10⟩]
          payAsYouGoRate := [⟨denom, 10⟩], bond := 100000000, settlementDuration := 1 })] }
  accepted := setup.filterMap isMsg

def openings : List Action :=
  [.msg (.openContract (openMsg .subscription 10)), .msg (.openContract (openMsg .payAsYouGo 100))]

def freshContract (type : ContractType) (deposit : ℤ) (id : ℕ) : Contract where
  provider := provider.pubKey
  id := id
  service := 10
  type := type
  client := client.pubKey
  delegate := client.pubKey
  duration := 1
  rate := ⟨denom, 10⟩
  deposit := deposit
  paid := 0
  height := 1
  settlementDuration := 1
  authorization := .strict
  queriesPerMinute := 1

def freshEvent (c : Contract) : Int64 × Event :=
  (c.height, .openContract
    { provider := c.provider, contractId := c.id, service := service, client := c.client
      delegate := c.delegate, type := c.type, height := c.height, duration := c.duration
      rate := c.rate, openCost := 20000000, deposit := c.deposit
      settlementDuration := c.settlementDuration, authorization := c.authorization
      queriesPerMinute := c.queriesPerMinute })

def contracted : World where
  ctx := genesis.ctx
  chain := { offering.chain with
    contracts := AList.insert 2 (freshContract .payAsYouGo 100 2)
      (AList.insert 1 (freshContract .subscription 10 1) ∅)
    expirationSets := AList.insert 3 ⟨3, [2]⟩ (AList.insert 2 ⟨2, [1]⟩ ∅)
    userSets := AList.insert
      "ARKEOPUB1ADDWNPEPQVQYDMQH4MMHACZXU85ECX6CZG68R83XL8SD05RGPF2ZAG6LENGPG3VDNSR"
      ⟨client.pubKey, some [1, 2]⟩ ∅
    nextContractId := 3
    bank := AList.insert (.module .contract, denom) 110
      (AList.insert (.user client.addr, denom) 959999890
      (AList.insert (.module .reserve, denom) 40000000
      (AList.insert (.module .provider, denom) 100000000
      (AList.insert (.user provider.addr, denom) 900000000 ∅))))
    journal := offering.chain.journal ++
      [⟨.user client.addr, .module .reserve, ⟨denom, 20000000⟩, .openCost⟩,
       ⟨.user client.addr, .module .contract, ⟨denom, 10⟩, .deposit 1⟩,
       ⟨.user client.addr, .module .reserve, ⟨denom, 20000000⟩, .openCost⟩,
       ⟨.user client.addr, .module .contract, ⟨denom, 100⟩, .deposit 2⟩]
    events := offering.chain.events ++
      [freshEvent (freshContract .subscription 10 1), freshEvent (freshContract .payAsYouGo 100 2)] }
  accepted := (setup ++ openings).filterMap isMsg

theorem run_eq {cr : Crypto} {w w' : World} {l : List Action}
    (h : (Runs.run (step cr) w l).any (World.same w') = true) :
    Runs.run (step cr) w l = some w' := by
  obtain ⟨v, hv, h⟩ := (Option.any_eq_true _ _).mp h
  rw [hv, World.eq_of_same h]

theorem setup_run : Runs.run (step crypto) genesis setup = some offering :=
  run_eq (by decide +kernel)

theorem openings_run : Runs.run (step crypto) genesis (setup ++ openings) = some contracted := by
  rw [Runs.run_append_of setup_run]
  exact run_eq (by decide +kernel)

/-- The run goes through, and the block that then ends settles the pay-as-you-go
contract at what was claimed. -/
theorem lifetimes_run : ∃ w w' c, Runs.run (step crypto) genesis lifetimes = some w ∧
    step crypto w .endBlock = some w' ∧ w'.chain.contracts.lookup 2 = some c ∧
    w.ctx.blockHeight = 3 ∧ c.settlementPeriodEnd = 3 ∧ c.settlementHeight = 3 ∧ c.paid = 30 := by
  have h : ((Runs.run (step crypto) genesis lifetimes).bind fun w =>
      (step crypto w .endBlock).bind fun w' => (w'.chain.contracts.lookup 2).map fun c =>
        (w.ctx.blockHeight, c.settlementPeriodEnd, c.settlementHeight, c.paid)) =
      some (3, 3, 3, 30) := by
    rw [show lifetimes = setup ++ openings ++ lifetimes.drop 4 from rfl,
      Runs.run_append_of openings_run]
    decide +kernel
  obtain ⟨w, hw, h⟩ := Option.bind_eq_some_iff.mp h
  obtain ⟨w', hw', h⟩ := Option.bind_eq_some_iff.mp h
  obtain ⟨c, hc, h⟩ := Option.map_eq_some_iff.mp h
  simp only [Prod.mk.injEq] at h
  obtain ⟨h1, h2, h3, h4⟩ := h
  exact ⟨w, w', c, hw, hw', hc, h1, h2, h3, h4⟩

end Sample

end Arkeo
