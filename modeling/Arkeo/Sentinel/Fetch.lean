import Arkeo.Reachable
import Arkeo.Sentinel.Stores

/-! # What the sentinel reads of the hub's answer

The gateway of the chain gives a contract as a JSON object: the fields under the names
of `keeper.proto`, numbers of 64 bits as strings, enumerations by name, keys as
strings.  `MemStore.fetchContract` decodes it into a structure of its own, and that
has the provider under another name and no settlement duration: the contract the
sentinel gets is not the contract of the chain (`fetch_unfaithful`).
-/
namespace Arkeo.Sentinel
open Text

variable {cr : Crypto} {w w' : Arkeo.World} {c : Contract} {cc : CachedContract} {k : ℕ}

/-- The JSON values a contract is made of. -/
inductive Json where
  | str (s : String)
  | num (n : ℤ)
  | obj (fields : List (String × String))
  deriving DecidableEq, Repr

/-! ## The gateway -/

/-- An enumeration by name; a number outside it stays a number. -/
def contractTypeJson : ContractType → Json
  | .subscription => .str "SUBSCRIPTION"
  | .payAsYouGo => .str "PAY_AS_YOU_GO"
  | .unknown n => .num n

def contractAuthorizationJson : ContractAuthorization → Json
  | .strict => .str "STRICT"
  | .openAuth => .str "OPEN"
  | .unknown n => .num n

/-- The contract as the gateway returns it. -/
def contractJson (c : Contract) : List (String × Json) :=
  [("provider", .str c.provider),
   ("service", .num c.service),
   ("client", .str c.client),
   ("delegate", .str c.delegate),
   ("type", contractTypeJson c.type),
   ("height", .str c.height.toInt.repr),
   ("duration", .str c.duration.toInt.repr),
   ("rate", .obj [("denom", c.rate.denom), ("amount", c.rate.amount.repr)]),
   ("deposit", .str c.deposit.repr),
   ("paid", .str c.paid.repr),
   ("nonce", .str c.nonce.toInt.repr),
   ("settlement_height", .str c.settlementHeight.toInt.repr),
   ("id", .str c.id.repr),
   ("settlement_duration", .str c.settlementDuration.toInt.repr),
   ("authorization", contractAuthorizationJson c.authorization),
   ("queries_per_minute", .str c.queriesPerMinute.toInt.repr)]

/-! ## The decoder

A field that is missing keeps its zero value; `none` is an error of `json.Unmarshal`. -/

section
variable (fields : List (String × Json))

def stringField (name : String) : Option String :=
  match fields.lookup name with
  | none => some ""
  | some (.str s) => some s
  | some _ => none

/-- `PubKey.UnmarshalJSON`. -/
def keyField (cr : Crypto) (name : String) : Option PubKey :=
  match fields.lookup name with
  | none => some ""
  | some (.str s) => cr.newPubKey s
  | some _ => none

def numField (name : String) : Option ℤ :=
  match fields.lookup name with
  | none => some 0
  | some (.num n) => some n
  | some _ => none

/-- `ContractType.UnmarshalJSON`: a name that is not known is the first one, and a
number, which arrives as a float, is passed over. -/
def typeField (name : String) : ContractType :=
  match fields.lookup name with
  | some (.str "PAY_AS_YOU_GO") => .payAsYouGo
  | _ => .subscription

/-- `ContractAuthorization.UnmarshalJSON`. -/
def authorizationField (name : String) : ContractAuthorization :=
  match fields.lookup name with
  | some (.str "OPEN") => .openAuth
  | _ => .strict

/-- A coin: its denomination and its amount. -/
def coinField (name : String) : Option (String × Option ℤ) :=
  match fields.lookup name with
  | none => some ("", none)
  | some (.obj coin) =>
      match coin.lookup "amount" with
      | none => some ((coin.lookup "denom").getD "", none)
      | some amount => (newIntFromString amount).map fun n =>
          ((coin.lookup "denom").getD "", some n)
  | some _ => none

/-- The answer as `MemStore.fetchContract` declares it. -/
def FetchContract.decode (cr : Crypto) : Option FetchContract := do
  let id ← stringField fields "id"
  let providerPubKey ← keyField fields cr "provider_pub_key"
  let service ← numField fields "service"
  let client ← keyField fields cr "client"
  let delegate ← keyField fields cr "delegate"
  let height ← stringField fields "height"
  let duration ← stringField fields "duration"
  let rate ← coinField fields "rate"
  let deposit ← stringField fields "deposit"
  let paid ← stringField fields "paid"
  let nonce ← stringField fields "nonce"
  let settlementHeight ← stringField fields "settlement_height"
  let queriesPerMinute ← stringField fields "queries_per_minute"
  some
    { id, providerPubKey, service, client, delegate, type := typeField fields "type", height
      duration, rate, deposit, paid, nonce, settlementHeight
      authorization := authorizationField fields "authorization", queriesPerMinute }

end

/-- What `MemStore.fetchContract` makes of a contract of the chain. -/
def fetched (cr : Crypto) (c : Contract) : Option CachedContract :=
  (FetchContract.decode (contractJson c) cr).map FetchContract.contract

/-- The contract of the chain as a value of the sentinel. -/
def CachedContract.ofChain (c : Contract) : CachedContract where
  provider := c.provider
  service := c.service
  client := c.client
  delegate := c.delegate
  type := c.type
  height := c.height
  duration := c.duration
  rate := (c.rate.denom, some c.rate.amount)
  deposit := some c.deposit
  paid := some c.paid
  nonce := c.nonce
  settlementHeight := c.settlementHeight
  id := c.id
  settlementDuration := c.settlementDuration
  authorization := c.authorization
  queriesPerMinute := c.queriesPerMinute

/-! ## What survives -/

theorem digits_fold {cs : List Char} (hd : ∀ c ∈ cs, c.isDigit = true) (n : ℕ) :
    cs.foldl (fun n c => n.bind fun n => (digit? c).map fun d => 10 * n + d) (some n) =
      some (Nat.ofDigitChars 10 cs n) := by
  induction cs generalizing n with
  | nil => rfl
  | cons c cs ih =>
    obtain ⟨hc, hcs⟩ := List.forall_mem_cons.mp hd
    rw [List.foldl_cons, digit?_of_isDigit hc]
    exact ih hcs _

/-- An amount that is not negative is read back when it has 256 bits. -/
theorem newIntFromString_intRepr {i : ℤ} (h0 : 0 ≤ i) :
    newIntFromString i.repr = if i.toNat < 2 ^ 256 then some i else none := by
  obtain ⟨c, cs, hl, hplus, hminus⟩ := natRepr_cases i.toNat
  have hd : ∀ d ∈ c :: cs, d.isDigit = true := by
    intro d hd
    rw [← hl, toList_natRepr] at hd
    exact Nat.isDigit_of_mem_toDigits (by decide) (by decide) hd
  have hval : Nat.ofDigitChars 10 (c :: cs) 0 = i.toNat := by
    rw [← hl, toList_natRepr]
    exact Nat.ofDigitChars_ten_toDigits
  rw [Int.repr_eq_if, if_pos h0, newIntFromString, hl]
  -- the first digit is no sign, so the last case of the reader applies
  split
  · rename_i h
    exact absurd (List.cons.inj h).1 hminus
  · rename_i h
    exact absurd (List.cons.inj h).1 hplus
  · simp only [List.isEmpty_cons, Bool.false_eq_true, if_false, digits_fold hd, hval,
      Option.bind_some, Int.toNat_of_nonneg h0]

/-- The contract of the chain less what the decoder does not read: the provider, which
it looks for under another name, the settlement duration, and what an enumeration of
authorizations has no name for. -/
def CachedContract.known (c : Contract) : CachedContract :=
  { CachedContract.ofChain c with
    provider := ""
    settlementDuration := 0
    id := (parseUint c.id.repr).1
    authorization := authorizationField (contractJson c) "authorization" }

theorem typeField_contractJson (h : c.type = .subscription ∨ c.type = .payAsYouGo) :
    typeField (contractJson c) "type" = c.type := by
  rcases h with h | h <;> simp [typeField, contractJson, List.lookup, contractTypeJson, h]

theorem coinField_contractJson {r : String × Option ℤ} (h0 : 0 ≤ c.rate.amount)
    (h : coinField (contractJson c) "rate" = some r) :
    r = (c.rate.denom, some c.rate.amount) := by
  simp [coinField, contractJson, List.lookup, newIntFromString_intRepr h0] at h
  exact h.2.symm

/-- **What the decoder yields of a stored contract.** -/
theorem fetched_some (hwf : c.Wf cr) (h : fetched cr c = some cc) :
    cc = CachedContract.known c := by
  obtain ⟨r, hdecode, rfl⟩ := Option.map_eq_some_iff.mp h
  have hfields : FetchContract.decode (contractJson c) cr =
      (cr.newPubKey c.client).bind fun client => (cr.newPubKey c.delegate).bind fun delegate =>
        (coinField (contractJson c) "rate").bind fun rate => some
          { id := c.id.repr, providerPubKey := "", service := c.service, client, delegate
            type := typeField (contractJson c) "type", height := c.height.toInt.repr
            duration := c.duration.toInt.repr, rate, deposit := c.deposit.repr
            paid := c.paid.repr, nonce := c.nonce.toInt.repr
            settlementHeight := c.settlementHeight.toInt.repr
            authorization := authorizationField (contractJson c) "authorization"
            queriesPerMinute := c.queriesPerMinute.toInt.repr } := rfl
  rw [hfields] at hdecode
  obtain ⟨client, hclient, hdecode⟩ := Option.bind_eq_some_iff.mp hdecode
  obtain ⟨delegate, hdelegate, hdecode⟩ := Option.bind_eq_some_iff.mp hdecode
  obtain ⟨rate, hrate, hdecode⟩ := Option.bind_eq_some_iff.mp hdecode
  obtain rfl := Option.some.inj hdecode
  obtain ⟨rfl, -⟩ := Crypto.newPubKey_some hclient
  obtain ⟨rfl, -⟩ := Crypto.newPubKey_some hdelegate
  obtain rfl := coinField_contractJson hwf.rate_pos.le hrate
  have hpaid : newIntFromString c.paid.repr = some c.paid := by
    have := hwf.paid_le
    have := hwf.deposit_fits
    have := hwf.paid_nonneg
    rw [newIntFromString_intRepr hwf.paid_nonneg, if_pos (by omega)]
  have hdeposit : newIntFromString c.deposit.repr = some c.deposit := by
    have h0 : 0 ≤ c.deposit := hwf.paid_nonneg.trans hwf.paid_le
    have := hwf.deposit_fits
    rw [newIntFromString_intRepr h0, if_pos (by omega)]
  simp only [FetchContract.contract, CachedContract.known, CachedContract.ofChain,
    parseInt_intRepr, typeField_contractJson hwf.known, hpaid, hdeposit]

namespace CachedContract

theorem known_isOpen (height : Int64) : (known c).life.isOpen height = c.isOpen height := rfl

theorem known_getSpender : (known c).getSpender = c.getSpender := rfl

theorem known_settlementPeriodEnd : (known c).life.settlementPeriodEnd = c.expiration := by
  change (if c.isPayAsYouGo then c.expiration + 0 else c.expiration) = c.expiration
  split
  · exact Int64.add_zero _
  · rfl

/-- The end of the settlement period is right when there is none. -/
theorem known_settlementPeriodEnd_eq (hwf : c.Wf cr) :
    (known c).life.settlementPeriodEnd = c.settlementPeriodEnd ↔
      (c.isPayAsYouGo = true → c.settlementDuration = 0) := by
  rw [known_settlementPeriodEnd, ← Int64.toInt_inj, hwf.expiration_toInt,
    hwf.settlementPeriodEnd_toInt, ← Int64.toInt_inj]
  cases c.isPayAsYouGo with
  | false => simp
  | true =>
    have h0 : (0 : Int64).toInt = 0 := rfl
    simp only [if_true, forall_const, h0]
    omega

/-- At one height the settled state is right when the contract is open there, or both
periods have ended, or neither has. -/
theorem known_isSettled_at (hwf : c.Wf cr) (t : Int64) :
    (known c).life.isSettled t = c.isSettled t ↔
      c.isOpen t = true ∨ (c.endHeight ≤ t.toInt ↔ c.settlementPeriodEnd.toInt ≤ t.toInt) := by
  rw [Contract.isSettled, Contract.isSettled, known_settlementPeriodEnd, known_isOpen]
  cases c.isOpen t with
  | true => simp
  | false =>
    simp only [Bool.not_false, Bool.true_and, decide_eq_decide, Bool.false_eq_true, false_or,
      Int64.le_iff_toInt_le, hwf.expiration_toInt]

/-- The settled state is right when the settlement period is at most the block after
the paid period, and that block only where the contract was not settled before. -/
theorem known_isSettled_eq (hwf : c.Wf cr) :
    (∀ height, (known c).life.isSettled height = c.isSettled height) ↔
      (c.isPayAsYouGo = true → c.settlementDuration.toInt ≤ 1 ∧
        (0 < c.settlementHeight.toInt → c.settlementHeight.toInt < c.endHeight →
          c.settlementDuration.toInt = 0)) := by
  have hend := hwf.settlementPeriodEnd_toInt
  have hdur := hwf.settlementDuration_nonneg
  have hexp := hwf.expiration_toInt
  have hsh := hwf.settlementHeight_nonneg
  simp only [known_isSettled_at hwf, hwf.isOpen_iff]
  constructor
  · intro hall hp
    have hfits := hwf.end_fits (by simpa [Contract.isPayAsYouGo] using hp)
    rw [hp, if_pos rfl] at hend
    -- the last open block tells an early settlement, the block after it a longer period
    have hlast := hall c.expiration
    have hafter : 0 < c.settlementDuration.toInt → (c.expiration + 1).toInt = c.endHeight + 1 := by
      intro hpos
      have hone : (1 : Int64).toInt = 1 := rfl
      have hheight := hwf.height_pos
      have hduration := hwf.duration_pos
      rw [toInt_add_of_fits, hexp, hone] <;> rw [hexp, hone, Contract.endHeight] <;> omega
    have hnext := hall (c.expiration + 1)
    omega
  · intro h height
    cases hp : c.isPayAsYouGo with
    | false =>
      rw [hp, if_neg Bool.false_ne_true] at hend
      exact .inr (by omega)
    | true =>
      obtain ⟨hone, hearly⟩ := h hp
      rw [hp, if_pos rfl] at hend
      omega

end CachedContract

/-- **No contract of the chain is fetched as it is**: the provider is never read.  What is
read keeps whether the contract is open and who may spend it; the end of the settlement
period is right where the contract has none, and with it whether the contract is settled,
up to the one block the two of them may differ by. -/
theorem fetch_unfaithful (hg : Genesis w) {actions : List Action}
    (hrun : Runs.run (step cr) w actions = some w') (hc : w'.chain.contracts.lookup k = some c) :
    fetched cr c ≠ some (CachedContract.ofChain c) ∧ ∀ cc, fetched cr c = some cc →
      (∀ height, cc.life.isOpen height = c.isOpen height) ∧ cc.getSpender = c.getSpender ∧
      (cc.life.settlementPeriodEnd = c.settlementPeriodEnd ↔
        (c.isPayAsYouGo = true → c.settlementDuration = 0)) ∧
      ((∀ height, cc.life.isSettled height = c.isSettled height) ↔
        (c.isPayAsYouGo = true → c.settlementDuration.toInt ≤ 1 ∧
          (0 < c.settlementHeight.toInt → c.settlementHeight.toInt < c.endHeight →
            c.settlementDuration.toInt = 0))) := by
  have hwf := ((reachable_inv hg hrun).stored k c hc).wf
  constructor
  · intro h
    have hprovider : c.provider = "" :=
      congrArg CachedContract.provider (fetched_some hwf h)
    exact hwf.provider_ne hprovider
  · intro cc h
    obtain rfl := fetched_some hwf h
    exact ⟨CachedContract.known_isOpen, CachedContract.known_getSpender,
      CachedContract.known_settlementPeriodEnd_eq hwf, CachedContract.known_isSettled_eq hwf⟩

/-- The pay-as-you-go contract of `lifetimes` and what is fetched of it. -/
theorem fetched_lifetimes : ∃ w c cc,
    Runs.run (step Sample.crypto) Sample.genesis Sample.lifetimes = some w ∧
    w.chain.contracts.lookup 2 = some c ∧ fetched Sample.crypto c = some cc ∧
    cc.provider = "" ∧ c.provider = Sample.provider.pubKey ∧
    cc.settlementDuration = 0 ∧ c.settlementDuration = 1 ∧
    cc.life.settlementPeriodEnd = 2 ∧ c.settlementPeriodEnd = 3 := by
  have h : ((Runs.run (step Sample.crypto) Sample.genesis Sample.lifetimes).bind fun w =>
      (w.chain.contracts.lookup 2).bind fun c => (fetched Sample.crypto c).map fun cc =>
        ((cc.provider, c.provider), (cc.settlementDuration, c.settlementDuration),
          cc.life.settlementPeriodEnd, c.settlementPeriodEnd)) =
      some (("", Sample.provider.pubKey), (0, 1), 2, 3) := by
    rw [show Sample.lifetimes = Sample.setup ++ Sample.openings ++ Sample.lifetimes.drop 4 from rfl,
      Runs.run_append_of Sample.openings_run]
    decide +kernel
  obtain ⟨w, hw, h⟩ := Option.bind_eq_some_iff.mp h
  obtain ⟨c, hc, h⟩ := Option.bind_eq_some_iff.mp h
  obtain ⟨cc, hcc, h⟩ := Option.map_eq_some_iff.mp h
  simp only [Prod.mk.injEq] at h
  obtain ⟨⟨h1, h2⟩, ⟨h3, h4⟩, h5, h6⟩ := h
  exact ⟨w, c, cc, hw, hc, hcc, h1, h2, h3, h4, h5, h6⟩

/-- What is fetched of it is as the theorem says. -/
theorem fetch_unfaithful_at_lifetimes : ∃ w c cc,
    Runs.run (step Sample.crypto) Sample.genesis Sample.lifetimes = some w ∧
    w.chain.contracts.lookup 2 = some c ∧ fetched Sample.crypto c = some cc ∧
    fetched Sample.crypto c ≠ some (CachedContract.ofChain c) ∧
    (∀ height, cc.life.isOpen height = c.isOpen height) ∧ cc.getSpender = c.getSpender := by
  obtain ⟨w, c, cc, hw, hc, hcc, -⟩ := fetched_lifetimes
  obtain ⟨hne, hall⟩ := fetch_unfaithful Sample.genesis_ok hw hc
  obtain ⟨hopen, hspender, -⟩ := hall cc hcc
  exact ⟨w, c, cc, hw, hc, hcc, hne, hopen, hspender⟩

/-- **A fetched contract is without its provider and its settlement period**: the
sentinel takes it for settled where the chain still takes claims on it. -/
theorem fetched_without_provider : ∃ w c cc,
    Runs.run (step Sample.crypto) Sample.genesis Sample.lifetimes = some w ∧
    w.chain.contracts.lookup 2 = some c ∧ fetched Sample.crypto c = some cc ∧
    cc ≠ CachedContract.ofChain c ∧ cc.provider ≠ c.provider ∧
    cc.life.settlementPeriodEnd ≠ c.settlementPeriodEnd := by
  obtain ⟨w, c, cc, hw, hc, hcc, h1, h2, -, -, h5, h6⟩ := fetched_lifetimes
  have hne : cc.provider ≠ c.provider := by
    rw [h1, h2]
    decide
  refine ⟨w, c, cc, hw, hc, hcc, ?_, hne, ?_⟩
  · intro heq
    rw [heq] at hne
    exact hne rfl
  · rw [h5, h6]
    decide

end Arkeo.Sentinel
