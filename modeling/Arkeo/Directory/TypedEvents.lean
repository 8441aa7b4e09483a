import Arkeo.BondSolvency
import Arkeo.Directory.Codecs
import Arkeo.History

/-! # The events of the chain and the decoder

The five messages that the indexer decodes, with their fields.  What the handlers put into
an event they have checked or made themselves, but for three things: the metadata URI of
a provider, which is any text of up to a hundred bytes, the name of the service in the
event of a bond, which is the name in the message, and the numbers of the provider's
status and of a contract's authorization.  An event comes back exactly when these do
(`event_comes_back_iff`).
-/
namespace Arkeo.Directory
open Exec

variable {cr : Crypto}

/-! ## Keys and addresses -/

/-- The bech32 strings as the libraries make and take them: letters and digits, and an
address is read from what is printed for it. -/
structure Bech32 (cr : Crypto) where
  /-- `AccAddress.String`. -/
  accAddressString : Bytes → String
  accAddress : ∀ s addr, cr.accAddressFromBech32 s = some addr →
    cr.accAddressFromBech32 (accAddressString addr) = some addr ∧ accAddressString addr ≠ "" ∧
      Plain (accAddressString addr)
  pubKey : ∀ s key, cr.getPubKeyFromBech32 s = some key → Plain s

namespace Codec

/-- `common.PubKey`: its string, which `NewPubKey` takes back. -/
def pubKey (cr : Crypto) : Codec PubKey where
  encode := .str
  decode
    | .str s => cr.newPubKey s
    | _ => none
  zero := ""

/-- `sdk.AccAddress`. -/
def accAddress (b : Bech32 cr) : Codec Bytes where
  encode addr := .str (b.accAddressString addr)
  decode
    | .str s => if s = "" then some [] else cr.accAddressFromBech32 s
    | _ => none
  zero := []

end Codec

theorem survives_pubKey (b : Bech32 cr) {key : PubKey} (h : cr.newPubKey key = some key) :
    (Codec.pubKey cr).Survives key := by
  by_cases hempty : key = ""
  · subst hempty
    exact (survives_plain (s := "") rfl nofun).mpr rfl
  · have hkey := h
    rw [Crypto.newPubKey, if_neg hempty] at hkey
    obtain ⟨pk, hpk, -⟩ := Option.map_eq_some_iff.mp hkey
    rw [survives_plain (s := key) rfl (b.pubKey key pk hpk), if_neg hempty]
    exact h

theorem survives_accAddress (b : Bech32 cr) {s : String} {addr : Bytes}
    (h : cr.accAddressFromBech32 s = some addr) : (Codec.accAddress b).Survives addr := by
  obtain ⟨hread, hne, hplain⟩ := b.accAddress s addr h
  rw [survives_plain (s := b.accAddressString addr) rfl hplain, if_neg hne]
  exact (if_neg hne).trans hread

/-! ## Enumerations -/

/-- `ProviderStatus_name`. -/
def providerStatus : Enumeration ProviderStatus where
  names := ["OFFLINE", "ONLINE"]
  number
    | .offline => 0
    | .online => 1
    | .unknown n => n
  ofNumber n := if n = 0 then .offline else if n = 1 then .online else .unknown n
  plain := by decide
  nodup := by decide

/-- `ContractType_name`. -/
def contractType : Enumeration ContractType where
  names := ["SUBSCRIPTION", "PAY_AS_YOU_GO"]
  number
    | .subscription => 0
    | .payAsYouGo => 1
    | .unknown n => n
  ofNumber n := if n = 0 then .subscription else if n = 1 then .payAsYouGo else .unknown n
  plain := by decide
  nodup := by decide

/-- `ContractAuthorization_name`. -/
def contractAuthorization : Enumeration ContractAuthorization where
  names := ["STRICT", "OPEN"]
  number
    | .strict => 0
    | .openAuth => 1
    | .unknown n => n
  ofNumber n := if n = 0 then .strict else if n = 1 then .openAuth else .unknown n
  plain := by decide
  nodup := by decide

theorem survives_providerStatus {status : ProviderStatus} :
    providerStatus.codec.Survives status ↔ status = .offline ∨ status = .online :=
  Enumeration.survives_iff_of_two rfl rfl rfl rfl rfl

theorem survives_contractType {type : ContractType} :
    contractType.codec.Survives type ↔ type = .subscription ∨ type = .payAsYouGo :=
  Enumeration.survives_iff_of_two rfl rfl rfl rfl rfl

theorem survives_contractAuthorization {auth : ContractAuthorization} :
    contractAuthorization.codec.Survives auth ↔ auth = .strict ∨ auth = .openAuth :=
  Enumeration.survives_iff_of_two rfl rfl rfl rfl rfl

/-! ## Names of services -/

/-- The bytes of letters, digits and dashes. -/
def isPlainByte (b : UInt8) : Bool :=
  b = 45 || (48 ≤ b && b ≤ 57) || (65 ≤ b && b ≤ 90) || (97 ≤ b && b ≤ 122)

theorem plain_of_bytes {s : String} (h : (nameBytes s).all isPlainByte = true) : Plain s :=
  chars_of_bytes h (by decide +kernel)

theorem serviceNames_plain : ∀ name ∈ serviceNames, (nameBytes name).all isPlainByte = true := by
  decide +kernel

theorem plain_serviceString (service : ℕ) : Plain (serviceString service) := by
  by_cases h : service < serviceNames.length
  · rw [serviceString_of_lt h]
    exact plain_of_bytes (serviceNames_plain _ (List.getElem_mem h))
  · rw [serviceString_of_le (Nat.not_lt.mp h)]
    intro c hc
    rw [String.toList_append] at hc
    rcases List.mem_append.mp hc with hc | hc
    · have hall : Plain "service-" := by decide
      exact hall c hc
    · exact plain_natRepr service c hc

theorem survives_service {name : String} (h : ∃ service, name = serviceString service) :
    Codec.string.Survives name := by
  obtain ⟨service, rfl⟩ := h
  exact survives_string.mpr (plain_serviceString service).passes

/-! ## Messages -/

/-- `EventBondProvider`. -/
structure EventBondProvider where
  provider : PubKey
  service : String
  bondRel : ℤ
  bondAbs : ℤ

/-- `EventCloseContract`. -/
structure EventCloseContract where
  contractId : ℕ
  provider : PubKey
  service : String
  client : PubKey
  delegate : PubKey

/-- `EventOpenContract` with the field that the chain never sets. -/
structure OpenContract extends EventOpenContract where
  settlementHeight : Int64

def bondProviderMessage (cr : Crypto) : Message EventBondProvider where
  fields :=
    [⟨"provider", .pubKey cr, EventBondProvider.provider⟩,
     ⟨"service", .string, EventBondProvider.service⟩,
     ⟨"bond_rel", .int, EventBondProvider.bondRel⟩,
     ⟨"bond_abs", .int, EventBondProvider.bondAbs⟩]
  build get := do
    let provider ← (Codec.pubKey cr).read (get "provider")
    let service ← Codec.string.read (get "service")
    let bondRel ← Codec.int.read (get "bond_rel")
    let bondAbs ← Codec.int.read (get "bond_abs")
    pure { provider, service, bondRel, bondAbs }
  build_iff get e := by
    constructor
    · intro h
      obtain ⟨_, h₁, h⟩ := Option.bind_eq_some_iff.mp h
      obtain ⟨_, h₂, h⟩ := Option.bind_eq_some_iff.mp h
      obtain ⟨_, h₃, h⟩ := Option.bind_eq_some_iff.mp h
      obtain ⟨_, h₄, h⟩ := Option.bind_eq_some_iff.mp h
      obtain rfl := Option.some.inj h
      exact ⟨h₁, h₂, h₃, h₄⟩
    · rintro ⟨h₁, h₂, h₃, h₄⟩
      exact (bind_of_some h₁ _).trans <| (bind_of_some h₂ _).trans <| (bind_of_some h₃ _).trans <|
        bind_of_some h₄ _
  names := by
    simp only [List.map_cons, List.map_nil]
    decide

def modProviderMessage (b : Bech32 cr) : Message EventModProvider where
  fields :=
    [⟨"creator", .accAddress b, EventModProvider.creator⟩,
     ⟨"provider", .pubKey cr, EventModProvider.provider⟩,
     ⟨"service", .string, EventModProvider.service⟩,
     ⟨"metadata_uri", .string, EventModProvider.metadataUri⟩,
     ⟨"metadata_nonce", .uint64, EventModProvider.metadataNonce⟩,
     ⟨"status", providerStatus.codec, EventModProvider.status⟩,
     ⟨"min_contract_duration", .int64, EventModProvider.minContractDuration⟩,
     ⟨"max_contract_duration", .int64, EventModProvider.maxContractDuration⟩,
     ⟨"subscription_rate", Codec.coin.list, EventModProvider.subscriptionRate⟩,
     ⟨"pay_as_you_go_rate", Codec.coin.list, EventModProvider.payAsYouGoRate⟩,
     ⟨"bond", .int, EventModProvider.bond⟩,
     ⟨"settlement_duration", .int64, EventModProvider.settlementDuration⟩]
  build get := do
    let creator ← (Codec.accAddress b).read (get "creator")
    let provider ← (Codec.pubKey cr).read (get "provider")
    let service ← Codec.string.read (get "service")
    let metadataUri ← Codec.string.read (get "metadata_uri")
    let metadataNonce ← Codec.uint64.read (get "metadata_nonce")
    let status ← providerStatus.codec.read (get "status")
    let minContractDuration ← Codec.int64.read (get "min_contract_duration")
    let maxContractDuration ← Codec.int64.read (get "max_contract_duration")
    let subscriptionRate ← Codec.coin.list.read (get "subscription_rate")
    let payAsYouGoRate ← Codec.coin.list.read (get "pay_as_you_go_rate")
    let bond ← Codec.int.read (get "bond")
    let settlementDuration ← Codec.int64.read (get "settlement_duration")
    pure
      { creator, provider, service, metadataUri, metadataNonce, status, minContractDuration
        maxContractDuration, subscriptionRate, payAsYouGoRate, bond, settlementDuration }
  build_iff get e := by
    constructor
    · intro h
      obtain ⟨_, h₁, h⟩ := Option.bind_eq_some_iff.mp h
      obtain ⟨_, h₂, h⟩ := Option.bind_eq_some_iff.mp h
      obtain ⟨_, h₃, h⟩ := Option.bind_eq_some_iff.mp h
      obtain ⟨_, h₄, h⟩ := Option.bind_eq_some_iff.mp h
      obtain ⟨_, h₅, h⟩ := Option.bind_eq_some_iff.mp h
      obtain ⟨_, h₆, h⟩ := Option.bind_eq_some_iff.mp h
      obtain ⟨_, h₇, h⟩ := Option.bind_eq_some_iff.mp h
      obtain ⟨_, h₈, h⟩ := Option.bind_eq_some_iff.mp h
      obtain ⟨_, h₉, h⟩ := Option.bind_eq_some_iff.mp h
      obtain ⟨_, h₁₀, h⟩ := Option.bind_eq_some_iff.mp h
      obtain ⟨_, h₁₁, h⟩ := Option.bind_eq_some_iff.mp h
      obtain ⟨_, h₁₂, h⟩ := Option.bind_eq_some_iff.mp h
      obtain rfl := Option.some.inj h
      exact ⟨h₁, h₂, h₃, h₄, h₅, h₆, h₇, h₈, h₉, h₁₀, h₁₁, h₁₂⟩
    · rintro ⟨h₁, h₂, h₃, h₄, h₅, h₆, h₇, h₈, h₉, h₁₀, h₁₁, h₁₂⟩
      exact (bind_of_some h₁ _).trans <| (bind_of_some h₂ _).trans <| (bind_of_some h₃ _).trans <|
        (bind_of_some h₄ _).trans <| (bind_of_some h₅ _).trans <| (bind_of_some h₆ _).trans <|
        (bind_of_some h₇ _).trans <| (bind_of_some h₈ _).trans <| (bind_of_some h₉ _).trans <|
        (bind_of_some h₁₀ _).trans <| (bind_of_some h₁₁ _).trans <| bind_of_some h₁₂ _
  names := by
    simp only [List.map_cons, List.map_nil]
    decide

def openContractMessage (cr : Crypto) : Message OpenContract where
  fields :=
    [⟨"provider", .pubKey cr, fun e => e.provider⟩,
     ⟨"contract_id", .uint64, fun e => e.contractId⟩,
     ⟨"service", .string, fun e => e.service⟩,
     ⟨"client", .pubKey cr, fun e => e.client⟩,
     ⟨"delegate", .pubKey cr, fun e => e.delegate⟩,
     ⟨"type", contractType.codec, fun e => e.type⟩,
     ⟨"height", .int64, fun e => e.height⟩,
     ⟨"duration", .int64, fun e => e.duration⟩,
     ⟨"rate", .coin, fun e => e.rate⟩,
     ⟨"open_cost", .int64, fun e => e.openCost⟩,
     ⟨"deposit", .int, fun e => e.deposit⟩,
     ⟨"settlement_duration", .int64, fun e => e.settlementDuration⟩,
     ⟨"authorization", contractAuthorization.codec, fun e => e.authorization⟩,
     ⟨"queries_per_minute", .int64, fun e => e.queriesPerMinute⟩,
     ⟨"settlement_height", .int64, fun e => e.settlementHeight⟩]
  build get := do
    let provider ← (Codec.pubKey cr).read (get "provider")
    let contractId ← Codec.uint64.read (get "contract_id")
    let service ← Codec.string.read (get "service")
    let client ← (Codec.pubKey cr).read (get "client")
    let delegate ← (Codec.pubKey cr).read (get "delegate")
    let type ← contractType.codec.read (get "type")
    let height ← Codec.int64.read (get "height")
    let duration ← Codec.int64.read (get "duration")
    let rate ← Codec.coin.read (get "rate")
    let openCost ← Codec.int64.read (get "open_cost")
    let deposit ← Codec.int.read (get "deposit")
    let settlementDuration ← Codec.int64.read (get "settlement_duration")
    let authorization ← contractAuthorization.codec.read (get "authorization")
    let queriesPerMinute ← Codec.int64.read (get "queries_per_minute")
    let settlementHeight ← Codec.int64.read (get "settlement_height")
    pure
      { provider, contractId, service, client, delegate, type, height, duration, rate, openCost
        deposit, settlementDuration, authorization, queriesPerMinute, settlementHeight }
  build_iff get e := by
    constructor
    · intro h
      obtain ⟨_, h₁, h⟩ := Option.bind_eq_some_iff.mp h
      obtain ⟨_, h₂, h⟩ := Option.bind_eq_some_iff.mp h
      obtain ⟨_, h₃, h⟩ := Option.bind_eq_some_iff.mp h
      obtain ⟨_, h₄, h⟩ := Option.bind_eq_some_iff.mp h
      obtain ⟨_, h₅, h⟩ := Option.bind_eq_some_iff.mp h
      obtain ⟨_, h₆, h⟩ := Option.bind_eq_some_iff.mp h
      obtain ⟨_, h₇, h⟩ := Option.bind_eq_some_iff.mp h
      obtain ⟨_, h₈, h⟩ := Option.bind_eq_some_iff.mp h
      obtain ⟨_, h₉, h⟩ := Option.bind_eq_some_iff.mp h
      obtain ⟨_, h₁₀, h⟩ := Option.bind_eq_some_iff.mp h
      obtain ⟨_, h₁₁, h⟩ := Option.bind_eq_some_iff.mp h
      obtain ⟨_, h₁₂, h⟩ := Option.bind_eq_some_iff.mp h
      obtain ⟨_, h₁₃, h⟩ := Option.bind_eq_some_iff.mp h
      obtain ⟨_, h₁₄, h⟩ := Option.bind_eq_some_iff.mp h
      obtain ⟨_, h₁₅, h⟩ := Option.bind_eq_some_iff.mp h
      obtain rfl := Option.some.inj h
      exact ⟨h₁, h₂, h₃, h₄, h₅, h₆, h₇, h₈, h₉, h₁₀, h₁₁, h₁₂, h₁₃, h₁₄, h₁₅⟩
    · rintro ⟨h₁, h₂, h₃, h₄, h₅, h₆, h₇, h₈, h₉, h₁₀, h₁₁, h₁₂, h₁₃, h₁₄, h₁₅⟩
      exact (bind_of_some h₁ _).trans <| (bind_of_some h₂ _).trans <| (bind_of_some h₃ _).trans <|
        (bind_of_some h₄ _).trans <| (bind_of_some h₅ _).trans <| (bind_of_some h₆ _).trans <|
        (bind_of_some h₇ _).trans <| (bind_of_some h₈ _).trans <| (bind_of_some h₉ _).trans <|
        (bind_of_some h₁₀ _).trans <| (bind_of_some h₁₁ _).trans <| (bind_of_some h₁₂ _).trans <|
        (bind_of_some h₁₃ _).trans <| (bind_of_some h₁₄ _).trans <| bind_of_some h₁₅ _
  names := by
    simp only [List.map_cons, List.map_nil]
    decide

def closeContractMessage (cr : Crypto) : Message EventCloseContract where
  fields :=
    [⟨"contract_id", .uint64, EventCloseContract.contractId⟩,
     ⟨"provider", .pubKey cr, EventCloseContract.provider⟩,
     ⟨"service", .string, EventCloseContract.service⟩,
     ⟨"client", .pubKey cr, EventCloseContract.client⟩,
     ⟨"delegate", .pubKey cr, EventCloseContract.delegate⟩]
  build get := do
    let contractId ← Codec.uint64.read (get "contract_id")
    let provider ← (Codec.pubKey cr).read (get "provider")
    let service ← Codec.string.read (get "service")
    let client ← (Codec.pubKey cr).read (get "client")
    let delegate ← (Codec.pubKey cr).read (get "delegate")
    pure { contractId, provider, service, client, delegate }
  build_iff get e := by
    constructor
    · intro h
      obtain ⟨_, h₁, h⟩ := Option.bind_eq_some_iff.mp h
      obtain ⟨_, h₂, h⟩ := Option.bind_eq_some_iff.mp h
      obtain ⟨_, h₃, h⟩ := Option.bind_eq_some_iff.mp h
      obtain ⟨_, h₄, h⟩ := Option.bind_eq_some_iff.mp h
      obtain ⟨_, h₅, h⟩ := Option.bind_eq_some_iff.mp h
      obtain rfl := Option.some.inj h
      exact ⟨h₁, h₂, h₃, h₄, h₅⟩
    · rintro ⟨h₁, h₂, h₃, h₄, h₅⟩
      exact (bind_of_some h₁ _).trans <| (bind_of_some h₂ _).trans <| (bind_of_some h₃ _).trans <|
        (bind_of_some h₄ _).trans <| bind_of_some h₅ _
  names := by
    simp only [List.map_cons, List.map_nil]
    decide

def settleContractMessage (cr : Crypto) : Message EventSettleContract where
  fields :=
    [⟨"provider", .pubKey cr, EventSettleContract.provider⟩,
     ⟨"contract_id", .uint64, EventSettleContract.contractId⟩,
     ⟨"service", .string, EventSettleContract.service⟩,
     ⟨"client", .pubKey cr, EventSettleContract.client⟩,
     ⟨"delegate", .pubKey cr, EventSettleContract.delegate⟩,
     ⟨"type", contractType.codec, EventSettleContract.type⟩,
     ⟨"nonce", .int64, EventSettleContract.nonce⟩,
     ⟨"height", .int64, EventSettleContract.height⟩,
     ⟨"paid", .int, EventSettleContract.paid⟩,
     ⟨"reserve", .int, EventSettleContract.reserve⟩]
  build get := do
    let provider ← (Codec.pubKey cr).read (get "provider")
    let contractId ← Codec.uint64.read (get "contract_id")
    let service ← Codec.string.read (get "service")
    let client ← (Codec.pubKey cr).read (get "client")
    let delegate ← (Codec.pubKey cr).read (get "delegate")
    let type ← contractType.codec.read (get "type")
    let nonce ← Codec.int64.read (get "nonce")
    let height ← Codec.int64.read (get "height")
    let paid ← Codec.int.read (get "paid")
    let reserve ← Codec.int.read (get "reserve")
    pure
      { provider, contractId, service, client, delegate, type, nonce, height, paid, reserve }
  build_iff get e := by
    constructor
    · intro h
      obtain ⟨_, h₁, h⟩ := Option.bind_eq_some_iff.mp h
      obtain ⟨_, h₂, h⟩ := Option.bind_eq_some_iff.mp h
      obtain ⟨_, h₃, h⟩ := Option.bind_eq_some_iff.mp h
      obtain ⟨_, h₄, h⟩ := Option.bind_eq_some_iff.mp h
      obtain ⟨_, h₅, h⟩ := Option.bind_eq_some_iff.mp h
      obtain ⟨_, h₆, h⟩ := Option.bind_eq_some_iff.mp h
      obtain ⟨_, h₇, h⟩ := Option.bind_eq_some_iff.mp h
      obtain ⟨_, h₈, h⟩ := Option.bind_eq_some_iff.mp h
      obtain ⟨_, h₉, h⟩ := Option.bind_eq_some_iff.mp h
      obtain ⟨_, h₁₀, h⟩ := Option.bind_eq_some_iff.mp h
      obtain rfl := Option.some.inj h
      exact ⟨h₁, h₂, h₃, h₄, h₅, h₆, h₇, h₈, h₉, h₁₀⟩
    · rintro ⟨h₁, h₂, h₃, h₄, h₅, h₆, h₇, h₈, h₉, h₁₀⟩
      exact (bind_of_some h₁ _).trans <| (bind_of_some h₂ _).trans <| (bind_of_some h₃ _).trans <|
        (bind_of_some h₄ _).trans <| (bind_of_some h₅ _).trans <| (bind_of_some h₆ _).trans <|
        (bind_of_some h₇ _).trans <| (bind_of_some h₈ _).trans <| (bind_of_some h₉ _).trans <|
        bind_of_some h₁₀ _
  names := by
    simp only [List.map_cons, List.map_nil]
    decide

/-! ## Events -/

/-- A message of the type that the indexer decodes an event to. -/
structure Typed where
  {α : Type}
  message : Message α
  value : α

/-- The message of an event.  The indexer passes over the events of the registry. -/
def typed? (b : Bech32 cr) : Event → Option Typed
  | .bondProvider provider service bondRel bondAbs =>
      some ⟨bondProviderMessage cr, ⟨provider, service, bondRel, bondAbs⟩⟩
  | .modProvider e => some ⟨modProviderMessage b, e⟩
  | .openContract e => some ⟨openContractMessage cr, ⟨e, 0⟩⟩
  | .closeContract contractId provider service client delegate =>
      some ⟨closeContractMessage cr, ⟨contractId, provider, service, client, delegate⟩⟩
  | .settleContract e => some ⟨settleContractMessage cr, e⟩
  | .registerService _ | .updateService _ | .removeService _ => none

/-- The numbers of an event are of their types: 64 bits, and the 256 bits of `math.Int`. -/
def Fits : Event → Prop
  | .bondProvider _ _ bondRel bondAbs => bondRel.natAbs < 2 ^ 256 ∧ bondAbs.natAbs < 2 ^ 256
  | .modProvider e => e.metadataNonce < 2 ^ 64 ∧ e.bond.natAbs < 2 ^ 256 ∧
      (∀ c ∈ e.subscriptionRate, c.amount.natAbs < 2 ^ 256) ∧
      ∀ c ∈ e.payAsYouGoRate, c.amount.natAbs < 2 ^ 256
  | .openContract e => e.contractId < 2 ^ 64 ∧ e.rate.amount.natAbs < 2 ^ 256 ∧
      e.deposit.natAbs < 2 ^ 256
  | .closeContract contractId _ _ _ _ => contractId < 2 ^ 64
  | .settleContract e => e.contractId < 2 ^ 64 ∧ e.paid.natAbs < 2 ^ 256 ∧
      e.reserve.natAbs < 2 ^ 256
  | _ => True

instance : ∀ e, Decidable (Fits e)
  | .bondProvider _ _ _ _ | .modProvider _ | .openContract _ | .settleContract _ =>
      inferInstanceAs (Decidable (_ ∧ _))
  | .closeContract contractId _ _ _ _ => inferInstanceAs (Decidable (contractId < 2 ^ 64))
  | .registerService _ | .updateService _ | .removeService _ => isTrue trivial

/-- The keys that a contract or its events name. -/
structure Keyed (cr : Crypto) (provider client delegate : PubKey) : Prop where
  provider : cr.newPubKey provider = some provider
  client : cr.newPubKey client = some client
  delegate : cr.newPubKey delegate = some delegate

/-- What the handlers have checked of an event, or made themselves. -/
def Genuine (cr : Crypto) : Event → Prop
  | .bondProvider provider _ _ _ => cr.newPubKey provider = some provider
  | .modProvider e => (∃ s, cr.accAddressFromBech32 s = some e.creator) ∧
      cr.newPubKey e.provider = some e.provider ∧ ∃ service, e.service = serviceString service
  | .openContract e => Keyed cr e.provider e.client e.delegate ∧
      (∃ service, e.service = serviceString service) ∧
      (e.type = .subscription ∨ e.type = .payAsYouGo)
  | .closeContract _ provider service client delegate => Keyed cr provider client delegate ∧
      ∃ n, service = serviceString n
  | .settleContract e => Keyed cr e.provider e.client e.delegate ∧
      (∃ service, e.service = serviceString service) ∧
      (e.type = .subscription ∨ e.type = .payAsYouGo)
  | _ => True

/-- What a sender can put into an event passes the decoder. -/
def Intact : Event → Prop
  | .bondProvider _ service _ _ => Passes service
  | .modProvider e => Passes e.metadataUri ∧ (e.status = .offline ∨ e.status = .online)
  | .openContract e => e.authorization = .strict ∨ e.authorization = .openAuth
  | _ => True

instance : ∀ e, Decidable (Intact e)
  | .bondProvider _ service _ _ => inferInstanceAs (Decidable (Passes service))
  | .modProvider _ => inferInstanceAs (Decidable (_ ∧ _))
  | .openContract _ => inferInstanceAs (Decidable (_ ∨ _))
  | .closeContract _ _ _ _ _ | .settleContract _ | .registerService _ | .updateService _
  | .removeService _ => isTrue trivial

/-- **A genuine event comes back exactly when what a sender put into it passes.** -/
theorem parse_typed_iff (b : Bech32 cr) {e : Event} (hg : Genuine cr e) (hf : Fits e) {t : Typed}
    (ht : typed? b e = some t) {attrs extra : List Attribute}
    (hem : Emitted t.message t.value attrs extra) :
    parseEventToConcreteType t.message attrs = some t.value ↔ Intact e := by
  rw [parseEventToConcreteType_iff hem, ← List.forall_iff_forall_mem]
  cases e with
  | bondProvider provider service bondRel bondAbs =>
    obtain rfl := Option.some.inj ht
    constructor
    · rintro ⟨-, hservice, -, -⟩
      exact survives_string.mp hservice
    · intro hservice
      exact ⟨survives_pubKey b hg, survives_string.mpr hservice, survives_int hf.1,
        survives_int hf.2⟩
  | modProvider e =>
    obtain rfl := Option.some.inj ht
    obtain ⟨⟨s, hcreator⟩, hprovider, hservice⟩ := hg
    obtain ⟨hnonce, hbond, hsub, hpay⟩ := hf
    constructor
    · rintro ⟨-, -, -, huri, -, hstatus, -⟩
      exact ⟨survives_string.mp huri, survives_providerStatus.mp hstatus⟩
    · rintro ⟨huri, hstatus⟩
      exact ⟨survives_accAddress b hcreator, survives_pubKey b hprovider,
        survives_service hservice, survives_string.mpr huri, survives_uint64 hnonce,
        survives_providerStatus.mpr hstatus, survives_int64 _, survives_int64 _,
        survives_coins hsub, survives_coins hpay, survives_int hbond, survives_int64 _⟩
  | openContract e =>
    obtain rfl := Option.some.inj ht
    obtain ⟨hkeys, hservice, htype⟩ := hg
    obtain ⟨hid, hrate, hdeposit⟩ := hf
    constructor
    · rintro ⟨-, -, -, -, -, -, -, -, -, -, -, -, hauth, -⟩
      exact survives_contractAuthorization.mp hauth
    · intro hauth
      exact ⟨survives_pubKey b hkeys.provider, survives_uint64 hid,
        survives_service hservice, survives_pubKey b hkeys.client,
        survives_pubKey b hkeys.delegate, survives_contractType.mpr htype, survives_int64 _,
        survives_int64 _, survives_coin hrate, survives_int64 _, survives_int hdeposit,
        survives_int64 _, survives_contractAuthorization.mpr hauth, survives_int64 _,
        survives_int64 _⟩
  | closeContract contractId provider service client delegate =>
    obtain rfl := Option.some.inj ht
    obtain ⟨hkeys, hservice⟩ := hg
    refine ⟨fun _ => trivial, fun _ => ?_⟩
    exact ⟨survives_uint64 hf, survives_pubKey b hkeys.provider, survives_service hservice,
      survives_pubKey b hkeys.client, survives_pubKey b hkeys.delegate⟩
  | settleContract e =>
    obtain rfl := Option.some.inj ht
    obtain ⟨hkeys, hservice, htype⟩ := hg
    obtain ⟨hid, hpaid, hreserve⟩ := hf
    refine ⟨fun _ => trivial, fun _ => ?_⟩
    exact ⟨survives_pubKey b hkeys.provider, survives_uint64 hid,
      survives_service hservice, survives_pubKey b hkeys.client,
      survives_pubKey b hkeys.delegate, survives_contractType.mpr htype, survives_int64 _,
      survives_int64 _, survives_int hpaid, survives_int hreserve⟩
  | registerService svc => cases ht
  | updateService svc => cases ht
  | removeService name => cases ht

end Arkeo.Directory
