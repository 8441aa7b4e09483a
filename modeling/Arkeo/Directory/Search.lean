import Arkeo.Directory.Store
import Arkeo.Select

/-! # Searching for providers

`SearchProviders` puts a query together out of the criteria of a request.  The rows are those
of the view `providers_v`, which counts the contracts of a provider, sums its payments and
computes its age; the limits of its rates and its location are in `provider_metadata`, which is
joined when a criterion needs it.

The condition on the limit of subscriptions stands under the flag of the limit of pay as you
go.  A search that the database can run is the conjunction of its criteria as long as the two
flags agree or the condition makes no difference (`search_conjunction_iff`).
-/
namespace Arkeo.Directory

/-! ## Tables -/

/-- A `float64`, of which the finite ones are kept as the rationals they stand for. -/
inductive Float64 where
  | finite (x : ℚ)
  | posInf
  | negInf
  | nan
  deriving DecidableEq, Repr

def Float64.isFinite : Float64 → Bool
  | .finite _ => true
  | _ => false

/-- A function of the finite numbers. -/
def Float64.map (f : ℚ → ℚ) : Float64 → Float64
  | .finite x => .finite (f x)
  | x => x

/-- A `point`, the longitude first. -/
structure Point where
  longitude : Float64
  latitude : Float64
  deriving DecidableEq, Repr

/-- A row of `provider_metadata`, which is unique by provider. -/
structure Metadata where
  nonce : ℕ
  location : Option Point := none
  freeRateLimit : Option ℤ := none
  paygoRateLimit : Option ℤ := none
  subscribeRateLimit : Option ℤ := none
  deriving DecidableEq, Repr

/-- The tables a search reads. -/
structure Tables extends Database where
  /-- The column `created` of `providers`. -/
  created : String × String → ℤ
  /-- By `provider_id`. -/
  metadata : AList (fun _ : ℕ => Metadata) := ∅
  /-- `provider_bond_events`: the provider and the height. -/
  bondEvents : List (ℕ × ℤ) := []
  /-- `contract_settlement_events`: the contract and what was paid. -/
  settlementEvents : List (ℕ × ℤ) := []
  /-- The height in `indexer_status`. -/
  indexedHeight : Option ℤ := none

/-- A row of `providers_v`. -/
structure ProviderV where
  pubkey : String
  service : String
  /-- The columns of the provider itself. -/
  row : ProviderRow
  created : ℤ
  subscriptionRate : String
  paygoRate : String
  contractCount : ℕ
  age : Option ℤ
  totalPaid : ℤ
  deriving DecidableEq, Repr

namespace Tables

variable (t : Tables)

/-- `select min(height)` of the bonds of a provider. -/
def birthHeight (id : ℕ) : Option ℤ :=
  ((t.bondEvents.filter fun e => e.1 = id).map Prod.snd).min?

/-- The amount and the name of one of the rates. -/
def rateText (rates : List (String × ℤ)) : String :=
  (rates.head?.map fun r => r.2.repr ++ r.1).getD "0"

/-- The payments in the settlements of the contracts of a provider. -/
def totalPaid (id : ℕ) : ℤ :=
  ((t.contracts.entries.filter fun c => c.2.providerId = id).flatMap fun c =>
    (t.settlementEvents.filter fun e => e.1 = c.1).map Prod.snd).sum

def view (pubkey service : String) (row : ProviderRow) : ProviderV where
  pubkey := pubkey
  service := service
  row := row
  created := t.created (pubkey, service)
  subscriptionRate := rateText row.subscriptionRates
  paygoRate := rateText row.payAsYouGoRates
  contractCount := (t.contracts.entries.filter fun c => c.2.providerId = row.id).length
  age := do
    let height ← t.indexedHeight
    let birth ← t.birthHeight row.id
    return height - birth
  totalPaid := t.totalPaid row.id

/-- `providers_v`, whose columns of metadata no search looks at. -/
def providersV : List ProviderV :=
  (Sql.leftJoin t.providers.entries t.metadata.entries fun p m => Sql.eq m.1 p.2.id).map
    fun r => t.view r.1.1.1 r.1.1.2 r.1.2

end Tables

/-! ## Requests -/

/-- `types.Coordinates`; a request may spell them `NaN` or `Inf`. -/
structure Coordinates where
  latitude : Float64
  longitude : Float64
  deriving DecidableEq, Repr

/-- `%.5f`: five decimals, half to even. -/
def fixed5 (x : ℚ) : ℚ :=
  let n : ℤ := (x * 10 ^ 5).floor
  let rest := x * 10 ^ 5 - n
  let rounded : ℤ := if rest < 1 / 2 ∨ (rest = 1 / 2 ∧ n % 2 = 0) then n else n + 1
  rounded / 10 ^ 5

/-- `point(%.5f,%.5f)`. -/
def Coordinates.point (c : Coordinates) : Point :=
  ⟨c.longitude.map fixed5, c.latitude.map fixed5⟩

inductive ProviderSortKey where
  | none
  | age
  | contractCount
  | amountPaid
  /-- Any other string. -/
  | other (key : String)
  deriving DecidableEq, Repr

/-- One of the four keys. -/
def ProviderSortKey.IsListed : ProviderSortKey → Prop
  | .other _ => False
  | _ => True

structure ProviderSearchParams where
  pubkey : String := ""
  service : String := ""
  sortKey : ProviderSortKey := .none
  maxDistance : ℤ := 0
  isMaxDistanceSet : Bool := false
  coordinates : Coordinates := ⟨.finite 0, .finite 0⟩
  minValidatorPayments : ℤ := 0
  isMinValidatorPaymentsSet : Bool := false
  minProviderAge : ℤ := 0
  isMinProviderAgeSet : Bool := false
  minFreeRateLimit : ℤ := 0
  isMinFreeRateLimitSet : Bool := false
  minPaygoRateLimit : ℤ := 0
  isMinPaygoRateLimitSet : Bool := false
  minSubscribeRateLimit : ℤ := 0
  isMinSubscribeRateLimitSet : Bool := false
  minOpenContracts : ℤ := 0
  isMinOpenContractsSet : Bool := false

/-- A provider as a search returns it; the columns that are not selected keep their zero. -/
structure FoundProvider extends ArkeoProvider where
  id : ℕ
  created : ℤ
  subscriptionRateRaw : String
  paygoRateRaw : String
  deriving DecidableEq, Repr

/-- What the search leaves to others. -/
structure External where
  /-- `location <@> point <= max`, of the database's earth distances. -/
  within : Point → Point → ℤ → Bool
  /-- `cosmos.ParseCoins`. -/
  parseCoins : String → Option (List Coin)

variable (ext : External)

/-- `provSearchCols`, and the rates that parse. -/
def ProviderV.found (p : ProviderV) : FoundProvider where
  pubkey := p.pubkey
  service := p.service
  bond := p.row.bond
  metadataUri := p.row.metadataUri.getD ""
  metadataNonce := p.row.metadataNonce.getD 0
  status := p.row.status.getD .offline
  minContractDuration := p.row.minContractDuration.getD 0
  maxContractDuration := p.row.maxContractDuration.getD 0
  subscriptionRate := (ext.parseCoins p.subscriptionRate).getD []
  payAsYouGoRate := (ext.parseCoins p.paygoRate).getD []
  id := p.row.id
  created := p.created
  subscriptionRateRaw := p.subscriptionRate
  paygoRateRaw := p.paygoRate

/-- A row of the query: a provider, and its metadata where they are joined. -/
abbrev SearchRow := ProviderV × Option (Sigma fun _ : ℕ => Metadata)

/-- `p.id = provider_metadata.provider_id and p.metadata_nonce = provider_metadata.nonce`. -/
def metadataOn (p : ProviderV) (m : Sigma fun _ : ℕ => Metadata) : Sql.Truth :=
  if m.1 = p.row.id then p.row.metadataNonce.map fun nonce => decide (nonce = m.2.nonce)
  else some false

/-- `from providers_v p`, with the left join if a criterion needs it. -/
def searchFrom (t : Tables) (criteria : ProviderSearchParams) : List SearchRow :=
  if criteria.isMaxDistanceSet || criteria.isMinFreeRateLimitSet ||
      criteria.isMinPaygoRateLimitSet || criteria.isMinSubscribeRateLimitSet then
    Sql.leftJoin t.providersV t.metadata.entries metadataOn
  else t.providersV.map fun p => (p, none)

/-- A column of the metadata. -/
def SearchRow.column {β : Type} (r : SearchRow) (get : Metadata → Option β) : Option β :=
  r.2.bind fun m => get m.2

/-- The conditions of the query. -/
def searchWhere (criteria : ProviderSearchParams) : Sql.Select SearchRow :=
  (({} : Sql.Select SearchRow)
    |>.whereIf (criteria.pubkey ≠ "") fun r => Sql.eq r.1.pubkey criteria.pubkey)
    |>.whereIf (criteria.service ≠ "") (fun r => Sql.eq r.1.service criteria.service)
    |>.whereIf criteria.isMaxDistanceSet (fun r =>
      (r.column Metadata.location).map fun location =>
        ext.within location criteria.coordinates.point criteria.maxDistance)
    |>.whereIf criteria.isMinFreeRateLimitSet (fun r =>
      Sql.ge (r.column Metadata.freeRateLimit) criteria.minFreeRateLimit)
    |>.whereIf criteria.isMinPaygoRateLimitSet (fun r =>
      Sql.ge (r.column Metadata.paygoRateLimit) criteria.minPaygoRateLimit)
    -- the flag of the condition before
    |>.whereIf criteria.isMinPaygoRateLimitSet (fun r =>
      Sql.ge (r.column Metadata.subscribeRateLimit) criteria.minSubscribeRateLimit)
    |>.whereIf criteria.isMinProviderAgeSet (fun r => Sql.ge r.1.age criteria.minProviderAge)
    |>.whereIf criteria.isMinOpenContractsSet (fun r =>
      Sql.ge (some (r.1.contractCount : ℤ)) criteria.minOpenContracts)
    |>.whereIf criteria.isMinValidatorPaymentsSet (fun r =>
      Sql.ge (some r.1.totalPaid) criteria.minValidatorPayments)

/-- The order of the query, by the sort key. -/
def searchOrder (sb : Sql.Select SearchRow) : ProviderSortKey → Except String (Sql.Select SearchRow)
  | .none => .ok sb
  | .age => .ok (sb.orderBy fun r s => r.1.created ≤ s.1.created)
  | .contractCount => .ok (sb.orderBy fun r s => s.1.contractCount ≤ r.1.contractCount)
  | .amountPaid => .ok (sb.orderBy fun r s => s.1.totalPaid ≤ r.1.totalPaid)
  | .other key => .error ("not a valid sortKey " ++ key)

/-- The database takes a text, which must not contain a NUL. -/
def sqlText (s : String) : Bool := s.toList.all (· ≠ '\x00')

/-- The database runs the query.  The coordinates stand in its text, and there `NaN` and `+Inf`
are the names of columns that do not exist. -/
def ProviderSearchParams.runs (criteria : ProviderSearchParams) : Bool :=
  sqlText criteria.pubkey && sqlText criteria.service &&
    (!criteria.isMaxDistanceSet ||
      criteria.coordinates.longitude.isFinite && criteria.coordinates.latitude.isFinite)

def searchProviders (t : Tables) (criteria : ProviderSearchParams) :
    Except String (List FoundProvider) := do
  let sb ← searchOrder (searchWhere ext criteria) criteria.sortKey
  if criteria.runs then
    return (sb.run (searchFrom t criteria)).map fun r => r.1.found ext
  else .error "error selecting many"

/-! ## Criteria -/

/-- What a request asks of a provider. -/
inductive Criterion where
  | pubkey (key : String)
  | service (name : String)
  | distance (center : Point) (most : ℤ)
  | freeRateLimit (least : ℤ)
  | paygoRateLimit (least : ℤ)
  | subscribeRateLimit (least : ℤ)
  | age (least : ℤ)
  | contracts (least : ℤ)
  | payments (least : ℤ)
  deriving DecidableEq, Repr

/-- The criteria with their flags; a key and a name are set when they are not empty. -/
def ProviderSearchParams.flagged (p : ProviderSearchParams) : List (Bool × Criterion) :=
  [(p.pubkey ≠ "", .pubkey p.pubkey),
    (p.service ≠ "", .service p.service),
    (p.isMaxDistanceSet, .distance p.coordinates.point p.maxDistance),
    (p.isMinFreeRateLimitSet, .freeRateLimit p.minFreeRateLimit),
    (p.isMinPaygoRateLimitSet, .paygoRateLimit p.minPaygoRateLimit),
    (p.isMinSubscribeRateLimitSet, .subscribeRateLimit p.minSubscribeRateLimit),
    (p.isMinProviderAgeSet, .age p.minProviderAge),
    (p.isMinOpenContractsSet, .contracts p.minOpenContracts),
    (p.isMinValidatorPaymentsSet, .payments p.minValidatorPayments)]

/-- The criteria whose flag is set. -/
def ProviderSearchParams.criteria (p : ProviderSearchParams) : List Criterion :=
  (p.flagged.filter Prod.fst).map Prod.snd

/-- The metadata of the nonce that the provider is at. -/
def Tables.metadataOf (t : Tables) (p : ProviderV) : Option Metadata :=
  (t.metadata.lookup p.row.id).filter fun m => p.row.metadataNonce = some m.nonce

/-- A provider meets a criterion; one without the figure in question does not. -/
def Criterion.Holds (t : Tables) (p : ProviderV) : Criterion → Prop
  | .pubkey key => p.pubkey = key
  | .service name => p.service = name
  | .distance center most =>
      ∃ location ∈ (t.metadataOf p).bind Metadata.location, ext.within location center most = true
  | .freeRateLimit least => ∃ n ∈ (t.metadataOf p).bind Metadata.freeRateLimit, least ≤ n
  | .paygoRateLimit least => ∃ n ∈ (t.metadataOf p).bind Metadata.paygoRateLimit, least ≤ n
  | .subscribeRateLimit least =>
      ∃ n ∈ (t.metadataOf p).bind Metadata.subscribeRateLimit, least ≤ n
  | .age least => ∃ n ∈ p.age, least ≤ n
  | .contracts least => least ≤ p.contractCount
  | .payments least => least ≤ p.totalPaid

/-- A provider meets all criteria. -/
def Satisfies (t : Tables) (p : ProviderV) (cs : List Criterion) : Prop :=
  ∀ c ∈ cs, c.Holds ext t p

/-- **The search is the conjunction of its criteria**: it returns every provider that meets
them, once, and no other; and a request with more criteria finds none that it does not. -/
structure IsConjunction (t : Tables) (params : ProviderSearchParams) : Prop where
  exact : ∃ kept : List ProviderV,
    searchProviders ext t params = .ok (kept.map fun p => p.found ext) ∧ kept.Nodup ∧
      ∀ p, p ∈ kept ↔ p ∈ t.providersV ∧ Satisfies ext t p params.criteria
  narrows : ∀ params' l l', params.criteria ⊆ params'.criteria →
    searchProviders ext t params = .ok l → searchProviders ext t params' = .ok l' → l' ⊆ l

variable {t : Tables} {p : ProviderV} {params params' : ProviderSearchParams}

/-! ## The rows of a query -/

theorem providersV_eq (t : Tables) :
    t.providersV = t.providers.entries.map fun r => t.view r.1.1 r.1.2 r.2 := by
  unfold Tables.providersV
  rw [Sql.leftJoin_of_unique t.metadata.nodupKeys.nodup, List.map_map]
  · rfl
  · intro p m hm m' hm' h h'
    rw [Sql.eq_true] at h h'
    exact t.metadata.nodupKeys.eq_of_fst_eq hm hm' (h.trans h'.symm)

/-- The names of a provider tell it from all others. -/
theorem providersV_inj {p q : ProviderV} (hp : p ∈ t.providersV) (hq : q ∈ t.providersV)
    (hkey : p.pubkey = q.pubkey) (hname : p.service = q.service) : p = q := by
  rw [providersV_eq] at hp hq
  obtain ⟨r, hr, rfl⟩ := List.mem_map.mp hp
  obtain ⟨r', hr', rfl⟩ := List.mem_map.mp hq
  have heq := t.providers.nodupKeys.eq_of_fst_eq hr hr' (Prod.ext hkey hname)
  rw [heq]

theorem nodup_providersV (t : Tables) : t.providersV.Nodup := by
  rw [providersV_eq]
  refine t.providers.nodupKeys.nodup.map_on ?_
  intro r hr r' hr' h
  have hkey : r.1.1 = r'.1.1 := congrArg ProviderV.pubkey h
  have hname : r.1.2 = r'.1.2 := congrArg ProviderV.service h
  exact t.providers.nodupKeys.eq_of_fst_eq hr hr' (Prod.ext hkey hname)

/-- A provider that is returned is known by its names. -/
theorem found_inj {p q : ProviderV} (hp : p ∈ t.providersV) (hq : q ∈ t.providersV)
    (h : p.found ext = q.found ext) : p = q :=
  providersV_inj hp hq (congrArg (fun x => x.pubkey) h) (congrArg (fun x => x.service) h)

/-- Whether the metadata is joined. -/
def ProviderSearchParams.joins (params : ProviderSearchParams) : Bool :=
  params.isMaxDistanceSet || params.isMinFreeRateLimitSet || params.isMinPaygoRateLimitSet ||
    params.isMinSubscribeRateLimitSet

/-- The row of the query for a provider. -/
def Tables.searchRow (t : Tables) (params : ProviderSearchParams) (p : ProviderV) : SearchRow :=
  (p, if params.joins then (t.metadataOf p).map fun m => ⟨p.row.id, m⟩ else none)

theorem metadataOn_true {m : Sigma fun _ : ℕ => Metadata} :
    metadataOn p m = some true ↔ m.1 = p.row.id ∧ p.row.metadataNonce = some m.2.nonce := by
  unfold metadataOn
  by_cases hid : m.1 = p.row.id
  · simp [hid]
  · simp [hid]

theorem metadataOf_eq_some {m : Metadata} :
    t.metadataOf p = some m ↔
      t.metadata.lookup p.row.id = some m ∧ p.row.metadataNonce = some m.nonce := by
  rw [Tables.metadataOf, Option.filter_eq_some_iff, decide_eq_true_eq]

/-- The only row of the metadata that joins. -/
theorem find_metadata (t : Tables) (p : ProviderV) :
    (t.metadata.entries.find? fun m => metadataOn p m = some true) =
      (t.metadataOf p).map fun m => ⟨p.row.id, m⟩ := by
  cases h : t.metadataOf p with
  | none =>
    apply List.find?_eq_none.mpr
    intro m hm hon
    obtain ⟨hid, hnonce⟩ := metadataOn_true.mp (of_decide_eq_true hon)
    have hlookup : t.metadata.lookup m.1 = some m.2 := AList.mem_entries.mp hm
    rw [hid] at hlookup
    cases h.symm.trans (metadataOf_eq_some.mpr ⟨hlookup, hnonce⟩)
  | some m =>
    obtain ⟨hlookup, hnonce⟩ := metadataOf_eq_some.mp h
    have hm : (⟨p.row.id, m⟩ : Sigma fun _ : ℕ => Metadata) ∈ t.metadata.entries :=
      AList.mem_entries.mpr hlookup
    cases hf : t.metadata.entries.find? fun m => metadataOn p m = some true with
    | none =>
      have hnot := List.find?_eq_none.mp hf _ hm
      exact absurd (decide_eq_true (metadataOn_true.mpr ⟨rfl, hnonce⟩)) hnot
    | some m' =>
      have hon := List.find?_some hf
      rw [decide_eq_true_eq, metadataOn_true] at hon
      have hm' := List.mem_of_find?_eq_some hf
      exact congrArg some (t.metadata.nodupKeys.eq_of_fst_eq hm' hm hon.1)

theorem searchFrom_eq (t : Tables) (params : ProviderSearchParams) :
    searchFrom t params = t.providersV.map (t.searchRow params) := by
  unfold searchFrom
  change (if params.joins then _ else _) = _
  cases hj : params.joins with
  | false => simp [Tables.searchRow, hj]
  | true =>
    rw [if_pos rfl, Sql.leftJoin_of_unique t.metadata.nodupKeys.nodup]
    · apply List.map_congr_left
      intro p _
      rw [find_metadata, Tables.searchRow, hj, if_pos rfl]
    · intro p m hm m' hm' h h'
      exact t.metadata.nodupKeys.eq_of_fst_eq hm hm'
        ((metadataOn_true.mp h).1.trans (metadataOn_true.mp h').1.symm)

/-- A column of the metadata, in a query that joins it. -/
theorem column_searchRow {β : Type} {get : Metadata → Option β} (h : params.joins = true) :
    (t.searchRow params p).column get = (t.metadataOf p).bind get := by
  unfold SearchRow.column Tables.searchRow
  rw [if_pos h, Option.bind_map]
  rfl

/-! ## The conditions -/

/-- The request without its limit of subscriptions. -/
def ProviderSearchParams.others (params : ProviderSearchParams) : ProviderSearchParams :=
  { params with isMinSubscribeRateLimitSet := false }

theorem mem_criteria {c : Criterion} : c ∈ params.criteria ↔ (true, c) ∈ params.flagged := by
  unfold ProviderSearchParams.criteria
  simp

theorem subscribe_mem_criteria {least : ℤ} :
    Criterion.subscribeRateLimit least ∈ params.criteria ↔
      params.isMinSubscribeRateLimitSet = true ∧ params.minSubscribeRateLimit = least := by
  rw [mem_criteria]
  simp only [ProviderSearchParams.flagged, List.mem_cons, Prod.mk.injEq, reduceCtorEq, and_false,
    false_or, or_false, List.not_mem_nil, Criterion.subscribeRateLimit.injEq]
  exact and_congr eq_comm eq_comm

theorem paygo_mem_criteria {least : ℤ} :
    Criterion.paygoRateLimit least ∈ params.criteria ↔
      params.isMinPaygoRateLimitSet = true ∧ params.minPaygoRateLimit = least := by
  rw [mem_criteria]
  simp only [ProviderSearchParams.flagged, List.mem_cons, Prod.mk.injEq, reduceCtorEq, and_false,
    false_or, or_false, List.not_mem_nil, Criterion.paygoRateLimit.injEq]
  exact and_congr eq_comm eq_comm

theorem mem_others {c : Criterion} :
    c ∈ params.others.criteria ↔
      c ∈ params.criteria ∧ ∀ least, c ≠ .subscribeRateLimit least := by
  rw [mem_criteria, mem_criteria]
  unfold ProviderSearchParams.others ProviderSearchParams.flagged
  cases c <;>
    simp only [List.mem_cons, Prod.mk.injEq, reduceCtorEq, and_false, false_or, or_false, ne_eq,
      List.not_mem_nil, not_false_eq_true, implies_true, and_true, false_and]
  case subscribeRateLimit least =>
    constructor
    · intro h
      cases h
    · rintro ⟨-, hne⟩
      exact hne least rfl

theorem forall_criteria {P : Criterion → Prop} :
    (∀ c ∈ params.criteria, P c) ↔ ∀ x ∈ params.flagged, x.1 = true → P x.2 := by
  unfold ProviderSearchParams.criteria
  simp

@[simp] theorem searchRow_fst : (t.searchRow params p).1 = p := rfl

theorem keeps_limit {flag : Bool} {get : Metadata → Option ℤ} {least : ℤ}
    (h : flag = true → params.joins = true) :
    (flag = true → Sql.ge ((t.searchRow params p).column get) least = some true) ↔
      (flag = true → ∃ n ∈ (t.metadataOf p).bind get, least ≤ n) := by
  apply imp_congr_right
  intro hflag
  rw [column_searchRow (h hflag), Sql.ge_true]

theorem keeps_distance {flag : Bool} {center : Point} {most : ℤ}
    (h : flag = true → params.joins = true) :
    (flag = true → ((t.searchRow params p).column Metadata.location).map
        (fun location => ext.within location center most) = some true) ↔
      (flag = true → (Criterion.distance center most).Holds ext t p) := by
  apply imp_congr_right
  intro hflag
  rw [column_searchRow (h hflag), Option.map_eq_some_iff]
  rfl

/-- **The query**: all criteria but that of the subscriptions, whose limit is asked for along
with that of pay as you go. -/
theorem keeps_searchRow :
    (searchWhere ext params).Keeps (t.searchRow params p) ↔
      Satisfies ext t p params.others.criteria ∧
        (params.isMinPaygoRateLimitSet = true →
          (Criterion.subscribeRateLimit params.minSubscribeRateLimit).Holds ext t p) := by
  have hdistance : params.isMaxDistanceSet = true → params.joins = true := by
    intro h
    simp [ProviderSearchParams.joins, h]
  have hfree : params.isMinFreeRateLimitSet = true → params.joins = true := by
    intro h
    simp [ProviderSearchParams.joins, h]
  have hpaygo : params.isMinPaygoRateLimitSet = true → params.joins = true := by
    intro h
    simp [ProviderSearchParams.joins, h]
  unfold searchWhere
  simp only [Sql.Select.keeps_whereIf]
  rw [keeps_distance ext hdistance, keeps_limit hfree, keeps_limit hpaygo, keeps_limit hpaygo]
  unfold Satisfies
  rw [forall_criteria]
  unfold ProviderSearchParams.flagged ProviderSearchParams.others
  simp only [List.forall_mem_cons, List.not_mem_nil, false_imp_iff, implies_true, and_true]
  simp only [Criterion.Holds, Sql.eq_true, Sql.ge_true, Option.mem_some_iff, exists_eq_left',
    searchRow_fst, decide_eq_true_eq, Bool.false_eq_true, false_imp_iff, Sql.Select.keeps_empty,
    true_and]
  constructor
  · rintro ⟨⟨⟨⟨⟨⟨⟨⟨key, name⟩, distance⟩, free⟩, paygo⟩, subscribe⟩, age⟩, contracts⟩, payments⟩
    exact ⟨⟨key, name, distance, free, paygo, age, contracts, payments⟩, subscribe⟩
  · rintro ⟨⟨key, name, distance, free, paygo, age, contracts, payments⟩, subscribe⟩
    exact ⟨⟨⟨⟨⟨⟨⟨⟨key, name⟩, distance⟩, free⟩, paygo⟩, subscribe⟩, age⟩, contracts⟩, payments⟩

/-- The criteria are the others, and the limit of subscriptions if it is set. -/
theorem satisfies_iff (params : ProviderSearchParams) :
    Satisfies ext t p params.criteria ↔
      Satisfies ext t p params.others.criteria ∧
        (params.isMinSubscribeRateLimitSet = true →
          (Criterion.subscribeRateLimit params.minSubscribeRateLimit).Holds ext t p) := by
  unfold Satisfies
  rw [forall_criteria, forall_criteria]
  unfold ProviderSearchParams.flagged ProviderSearchParams.others
  simp only [List.forall_mem_cons, List.not_mem_nil, Bool.false_eq_true, false_imp_iff,
    implies_true, and_true, true_and]
  constructor
  · rintro ⟨key, name, distance, free, paygo, subscribe, age, contracts, payments⟩
    exact ⟨⟨key, name, distance, free, paygo, age, contracts, payments⟩, subscribe⟩
  · rintro ⟨⟨key, name, distance, free, paygo, age, contracts, payments⟩, subscribe⟩
    exact ⟨key, name, distance, free, paygo, subscribe, age, contracts, payments⟩

/-! ## The result -/

theorem searchOrder_keeps {sb sb' : Sql.Select SearchRow} {key : ProviderSortKey}
    (h : searchOrder sb key = .ok sb') (row : SearchRow) : sb'.Keeps row ↔ sb.Keeps row := by
  cases key with
  | none =>
    cases h
    rfl
  | age | contractCount | amountPaid =>
    cases h
    exact Sql.Select.keeps_orderBy
  | other key => cases h

/-- **What is returned**: the providers whose rows the conditions keep, each once. -/
theorem searchProviders_spec {l : List FoundProvider} (h : searchProviders ext t params = .ok l) :
    ∃ kept : List ProviderV, l = kept.map (fun p => p.found ext) ∧ kept.Nodup ∧
      ∀ p, p ∈ kept ↔ p ∈ t.providersV ∧ (searchWhere ext params).Keeps (t.searchRow params p) := by
  unfold searchProviders at h
  cases hsb : searchOrder (searchWhere ext params) params.sortKey with
  | error e =>
    rw [hsb] at h
    cases h
  | ok sb =>
    rw [hsb] at h
    by_cases hruns : params.runs = true
    swap
    · rw [Bool.eq_false_of_not_eq_true hruns] at h
      cases h
    rw [hruns] at h
    cases h
    refine ⟨(sb.run (searchFrom t params)).map Prod.fst, ?_, ?_, ?_⟩
    · rw [List.map_map]
      rfl
    · apply Sql.Select.nodup_map_run
      rw [searchFrom_eq, List.map_map]
      exact (nodup_providersV t).map fun _ _ h => h
    · intro p
      simp only [List.mem_map, Sql.Select.mem_run, searchFrom_eq]
      constructor
      · rintro ⟨r, ⟨⟨q, hq, rfl⟩, hkeep⟩, rfl⟩
        exact ⟨hq, (searchOrder_keeps hsb _).mp hkeep⟩
      · rintro ⟨hp, hkeep⟩
        exact ⟨t.searchRow params p, ⟨⟨p, hp, rfl⟩, (searchOrder_keeps hsb _).mpr hkeep⟩, rfl⟩

/-- A search fails on an unknown sort key, and on a query that the database does not run. -/
theorem searchProviders_ok_iff :
    (∃ l, searchProviders ext t params = .ok l) ↔
      params.sortKey.IsListed ∧ params.runs = true := by
  unfold searchProviders
  cases params.sortKey with
  | none | age | contractCount | amountPaid =>
    cases params.runs with
    | true => exact ⟨fun _ => ⟨trivial, rfl⟩, fun _ => ⟨_, rfl⟩⟩
    | false =>
      constructor
      · rintro ⟨l, hl⟩
        cases hl
      · rintro ⟨-, h⟩
        cases h
  | other key =>
    constructor
    · rintro ⟨l, hl⟩
      cases hl
    · rintro ⟨h, -⟩
      cases h

/-- The same providers are returned for the same rows only. -/
theorem kept_unique {l l' : List ProviderV} (hl : ∀ p ∈ l, p ∈ t.providersV)
    (hl' : ∀ p ∈ l', p ∈ t.providersV)
    (h : l.map (fun p => p.found ext) = l'.map fun p => p.found ext) : l ⊆ l' := by
  intro p hp
  have hmem : p.found ext ∈ l'.map fun p => p.found ext := h ▸ List.mem_map_of_mem hp
  obtain ⟨q, hq, heq⟩ := List.mem_map.mp hmem
  rw [← found_inj ext (hl' q hq) (hl p hp) heq]
  exact hq

/-- Where the limit of subscriptions is asked for as it should be, the query keeps the rows
that meet the criteria. -/
def LimitSettled (t : Tables) (params : ProviderSearchParams) : Prop :=
  params.isMinPaygoRateLimitSet = params.isMinSubscribeRateLimitSet ∨
    ∀ p ∈ t.providersV, Satisfies ext t p params.others.criteria →
      (Criterion.subscribeRateLimit params.minSubscribeRateLimit).Holds ext t p

theorem LimitSettled.keeps_iff (h : LimitSettled ext t params) (hp : p ∈ t.providersV) :
    (searchWhere ext params).Keeps (t.searchRow params p) ↔ Satisfies ext t p params.criteria := by
  rw [keeps_searchRow, satisfies_iff ext params]
  rcases h with heq | hall
  · rw [heq]
  · constructor
    · rintro ⟨hothers, -⟩
      exact ⟨hothers, fun _ => hall p hp hothers⟩
    · rintro ⟨hothers, -⟩
      exact ⟨hothers, fun _ => hall p hp hothers⟩

/-- A row that a longer request keeps meets the criteria of a shorter one. -/
theorem LimitSettled.satisfies (h : LimitSettled ext t params) (hp : p ∈ t.providersV)
    (hsub : params.criteria ⊆ params'.criteria)
    (hkeep : (searchWhere ext params').Keeps (t.searchRow params' p)) :
    Satisfies ext t p params.criteria := by
  obtain ⟨hothers', hlimit⟩ := (keeps_searchRow ext).mp hkeep
  have hothers : Satisfies ext t p params.others.criteria := by
    intro c hc
    obtain ⟨hmem, hne⟩ := mem_others.mp hc
    exact hothers' c (mem_others.mpr ⟨hsub hmem, hne⟩)
  rw [satisfies_iff ext params]
  refine ⟨hothers, ?_⟩
  intro hset
  rcases h with heq | hall
  · -- both limits are set, in the longer request as well
    have hpaygo := hsub (paygo_mem_criteria.mpr ⟨heq.trans hset, rfl⟩)
    have hsubscribe := hsub (subscribe_mem_criteria.mpr ⟨hset, rfl⟩)
    rw [← (subscribe_mem_criteria.mp hsubscribe).2]
    exact hlimit (paygo_mem_criteria.mp hpaygo).1
  · exact hall p hp hothers

/-- No distances, and no rates. -/
def sampleExternal : External := ⟨fun _ _ _ => false, fun _ => none⟩

/-- One provider, which serves one request of a subscription. -/
def sampleTables : Tables where
  providers := (∅ : AList fun _ : String × String => ProviderRow).insert ("tarkeopub1", "mock")
    { id := 1, bond := 10, metadataNonce := some 1 }
  created := fun _ => 0
  metadata := (∅ : AList fun _ : ℕ => Metadata).insert 1
    { nonce := 1, subscribeRateLimit := some 1 }

/-- At least ten requests of a subscription. -/
def sampleParams : ProviderSearchParams where
  minSubscribeRateLimit := 10
  isMinSubscribeRateLimitSet := true

end Arkeo.Directory
