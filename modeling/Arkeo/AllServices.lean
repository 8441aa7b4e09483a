import Arkeo.Registry
import Arkeo.Sentinel.Redirect

/-! # The published services

The query `AllServices` gives the records of the registry, sorted by name, each with its id
cut to 32 bits, and a sentinel builds the map from names to ids it matches requests with out
of the answer.  The messages use `ResolveServiceEnum`, which turns down an id of more than
31 bits, and registering does not: an id that is too large is published as another one, which
may be that of another service.  A registry without records is filled from the static table
before it is published, on a branch of the store that is dropped with the query, so that the
messages find none of those names.

The answer can be used as long as neither happens (`published_usable_iff`).
-/
namespace Arkeo
open Exec

variable {cr : Crypto} {ctx : Context} {s s' s₀ : ChainState} {w₀ w w' : World}
  {actions : List Action} {entries : List Service} {descriptions : String → String}

/-! ## The query -/

/-- `types.ServiceEnum`. -/
structure ServiceEnum where
  serviceId : Int32
  name : String
  description : String
  serviceType : String
  deriving DecidableEq, Repr

/-- A record as it is published, with `int32(svc.Id)`. -/
def Service.published (svc : Service) : ServiceEnum where
  serviceId := Int32.ofNat svc.id
  name := svc.name
  description := svc.description
  serviceType := svc.serviceType

/-- The records sorted by name. -/
def publish (services : AList fun _ : String => Service) : List ServiceEnum :=
  (services.entries.map fun e => e.2.published).mergeSort fun a b => a.name ≤ b.name

/-- `AllServices`, with the static table in the order the map is walked in. -/
def allServices (entries : List Service) : Keeper (List ServiceEnum) := do
  let hasAny ← reading fun s => !s.services.entries.isEmpty
  if !hasAny then seedServices entries
  reading fun s => publish s.services

/-- The answer; what the query has written is dropped with its branch of the store. -/
def queryAllServices (entries : List Service) (s : ChainState) : List ServiceEnum :=
  match allServices entries s with
  | .ok services _ => services
  | .error _ _ => []

/-- The store the answer is read from. -/
def ChainState.queried (s : ChainState) (entries : List Service) : ChainState :=
  if s.services.entries.isEmpty then s.putServices (entries.filter Service.accepted) else s

theorem queryAllServices_eq (entries : List Service) (s : ChainState) :
    queryAllServices entries s = publish (s.queried entries).services := by
  have hall : allServices entries s =
      .ok (publish (s.queried entries).services) (s.queried entries) := by
    unfold allServices ChainState.queried
    rw [reading_bind]
    cases s.services.entries.isEmpty with
    | true =>
      change EStateM.bind (seedServices entries) (fun _ => reading _) s = _
      unfold EStateM.bind
      rw [seedServices_eq]
      rfl
    | false => rfl
  rw [queryAllServices, hall]

theorem mem_publish {services : AList fun _ : String => Service} {e : ServiceEnum} :
    e ∈ publish services ↔ ∃ k r, services.lookup k = some r ∧ r.published = e := by
  unfold publish
  rw [List.mem_mergeSort, List.mem_map]
  constructor
  · rintro ⟨⟨k, r⟩, hmem, rfl⟩
    exact ⟨k, r, AList.mem_entries.mp hmem, rfl⟩
  · rintro ⟨k, r, hr, rfl⟩
    exact ⟨⟨k, r⟩, AList.mem_entries.mpr hr, rfl⟩

/-! ## What a sentinel relies on -/

/-- An element of the answer as the sentinel decodes it. -/
def ServiceEnum.decoded (e : ServiceEnum) : Sentinel.RegistryEntry where
  serviceId := e.serviceId.toInt
  name := e.name

/-- The answer agrees with the messages. -/
structure Usable (published : List ServiceEnum) (s : ChainState) : Prop where
  distinct : (published.map ServiceEnum.serviceId).Nodup
  resolved : ∀ e ∈ published, ∃ id svc, resolveServiceEnum e.name s = .ok (id, svc) s ∧
    e.serviceId.toInt = id
  /-- The map that is loaded from the answer. -/
  loaded : ∀ name id, Sentinel.loadServiceRegistry (some (published.map ServiceEnum.decoded)) name =
    some id → ∃ n svc, resolveServiceEnum name s = .ok (n, svc) s ∧ id = n

/-- A registry with records, all with ids of 31 bits. -/
def ChainState.Small (s : ChainState) : Prop :=
  s.services ≠ ∅ ∧ AList.All (fun _ r => r.id ≤ 2147483647) s.services

theorem int32_ofNat_toInt {n : ℕ} (h : n ≤ 2147483647) : (Int32.ofNat n).toInt = n :=
  Int32.toInt_ofNat_of_lt (by omega)

/-- Every entry of the loaded map comes from an element of the answer. -/
theorem fetchedRegistry_mem {services : List Sentinel.RegistryEntry} {name : String} {id : ℤ}
    (h : Sentinel.fetchedRegistry services name = some id) :
    ∃ e ∈ services, toLower e.name = name ∧ e.serviceId = id := by
  unfold Sentinel.fetchedRegistry at h
  induction services using List.reverseRecOn with
  | nil => cases h
  | append_singleton services e ih =>
    rw [List.foldl_append, List.foldl_cons, List.foldl_nil] at h
    by_cases hname : name = toLower e.name
    · subst hname
      rw [Function.update_self] at h
      exact ⟨e, by simp, rfl, Option.some.inj h⟩
    · rw [Function.update_of_ne hname] at h
      obtain ⟨e', hmem, he'⟩ := ih h
      exact ⟨e', List.mem_append_left _ hmem, he'⟩

/-- A record of a small registry is found by the messages. -/
theorem ChainState.Small.resolved (hsmall : s.Small) (hl : s.Listed) {r : Service}
    (hr : s.services.lookup k = some r) {name : String} (hname : toLower name = k) :
    resolveServiceEnum name s = .ok (r.id, r) s := by
  refine resolveServiceEnum_ok.mpr ⟨⟨?_, by rw [hname, hr]⟩, rfl⟩
  rw [ChainState.serviceId?, hname, hr, Option.bind_some, if_neg]
  rw [not_or, not_lt]
  have haccepted := hl.accepted k r hr
  simp only [Service.accepted, Bool.and_eq_true, decide_eq_true_eq] at haccepted
  exact ⟨haccepted.2, hsmall.2 k r hr⟩

theorem ChainState.queried_of_lookup (entries : List Service) {k : String} {r : Service}
    (hr : s.services.lookup k = some r) : s.queried entries = s := by
  have hne : s.services.entries.isEmpty = false := by
    rw [List.isEmpty_eq_false_iff_exists_mem]
    exact ⟨⟨k, r⟩, AList.mem_entries.mpr hr⟩
  rw [ChainState.queried, hne]
  rfl

/-- The static table leaves a record. -/
theorem seeded_nonempty (hperm : entries.Perm (staticServices descriptions)) (s : ChainState) :
    ∃ k r, (s.putServices (entries.filter Service.accepted)).services.lookup k = some r := by
  have hmem : { id := 1, name := "mock", description := descriptions "mock" } ∈
      entries.filter Service.accepted := by
    refine List.mem_filter.mpr ⟨hperm.mem_iff.mpr (staticServices_mem descriptions rfl), ?_⟩
    have hblank : isBlank "mock" = false := by decide
    simp [Service.accepted, hblank]
  have hlast := AList.lastWith_of_nodup (staticServices_keys hperm) hmem
  exact ⟨_, _, by rw [lookup_putServices, hlast, Option.some_or]⟩

theorem ChainState.Small.queried (h : s.Small) (entries : List Service) : s.queried entries = s := by
  obtain ⟨k, r, hr⟩ := AList.exists_lookup h.1
  exact s.queried_of_lookup entries hr

/-- Ids of 31 bits stay apart when they are cut. -/
theorem ChainState.Small.distinct (h : s.Small) (hreg : s.Registered) :
    ((publish s.services).map ServiceEnum.serviceId).Nodup := by
  have hsorted : (publish s.services).Perm (s.services.entries.map fun e => e.2.published) :=
    List.mergeSort_perm _ _
  refine (hsorted.map _).nodup_iff.mpr ?_
  rw [List.map_map]
  refine s.services.nodupKeys.nodup.map_on ?_
  rintro ⟨k, r⟩ hmem ⟨k', r'⟩ hmem' hid
  have hr := AList.mem_entries.mp hmem
  have hr' := AList.mem_entries.mp hmem'
  have hcut : (Int32.ofNat r.id).toInt = (Int32.ofNat r'.id).toInt := congrArg Int32.toInt hid
  rw [int32_ofNat_toInt (h.2 k r hr), int32_ofNat_toInt (h.2 k' r' hr')] at hcut
  obtain rfl := hreg.inverse.key_eq hr hr' (Int.ofNat_inj.mp hcut)
  obtain rfl := Option.some.inj (hr.symm.trans hr')
  rfl

theorem loaded_mem {published : List ServiceEnum} (hne : published ≠ []) {name : String} {id : ℤ}
    (h : Sentinel.loadServiceRegistry (some (published.map ServiceEnum.decoded)) name = some id) :
    ∃ e ∈ published, toLower e.name = name ∧ e.serviceId.toInt = id := by
  obtain ⟨e, published, rfl⟩ := List.exists_cons_of_ne_nil hne
  obtain ⟨x, hmem, hname, hid⟩ := fetchedRegistry_mem h
  have hmem : x ∈ (e :: published).map ServiceEnum.decoded := hmem
  obtain ⟨e', he', rfl⟩ := List.mem_map.mp hmem
  exact ⟨e', he', hname, hid⟩

/-- **When the answer can be used**, in a registry with its index. -/
theorem usable_iff (hperm : entries.Perm (staticServices descriptions)) (hl : s.Listed) :
    Usable (queryAllServices entries s) s ↔ s.Small := by
  rw [queryAllServices_eq]
  constructor
  · intro h
    refine ⟨?_, ?_⟩
    · -- what is seeded for the answer is not in the store
      intro hempty
      obtain ⟨k, r, hr⟩ := seeded_nonempty hperm s
      have hq : s.queried entries = s.putServices (entries.filter Service.accepted) := by
        rw [ChainState.queried, hempty]
        rfl
      rw [← hq] at hr
      obtain ⟨id, svc, hres, -⟩ := h.resolved _ (mem_publish.mpr ⟨k, r, hr, rfl⟩)
      obtain ⟨⟨-, hsvc⟩, -⟩ := resolveServiceEnum_ok.mp hres
      rw [hempty, AList.lookup_empty] at hsvc
      cases hsvc
    · intro k r hr
      have hq : s.queried entries = s := s.queried_of_lookup entries hr
      rw [hq] at h
      obtain ⟨id, svc, hres, -⟩ := h.resolved _ (mem_publish.mpr ⟨k, r, hr, rfl⟩)
      obtain ⟨⟨hid, -⟩, -⟩ := resolveServiceEnum_ok.mp hres
      have hkey : toLower r.published.name = k := hl.registered.keyed k r hr
      rw [ChainState.serviceId?, hkey, hr, Option.bind_some] at hid
      split at hid
      · cases hid
      · rename_i hbounds
        exact not_lt.mp (not_or.mp hbounds).2
  · intro h
    rw [h.queried]
    have hfound : ∀ e ∈ publish s.services, ∃ r, s.services.lookup (toLower e.name) = some r ∧
        r.published = e := by
      intro e he
      obtain ⟨k, r, hr, rfl⟩ := mem_publish.mp he
      have hkey : toLower r.published.name = k := hl.registered.keyed k r hr
      exact ⟨r, by rw [hkey, hr], rfl⟩
    refine ⟨?_, ?_, ?_⟩
    · exact h.distinct hl.registered
    · intro e he
      obtain ⟨r, hr, rfl⟩ := hfound e he
      exact ⟨r.id, r, h.resolved hl hr rfl, int32_ofNat_toInt (h.2 _ r hr)⟩
    · intro name id hload
      have hne : publish s.services ≠ [] := by
        obtain ⟨k, r, hr⟩ := AList.exists_lookup h.1
        exact List.ne_nil_of_mem (mem_publish.mpr ⟨k, r, hr, rfl⟩)
      obtain ⟨e, he, rfl, rfl⟩ := loaded_mem hne hload
      obtain ⟨r, hr, rfl⟩ := hfound e he
      exact ⟨r.id, r, h.resolved hl hr (toLower_toLower _), int32_ofNat_toInt (h.2 _ r hr)⟩

/-! ## Runs -/

/-- The registry stays small when it takes the message. -/
def Msg.KeepsSmall (s : ChainState) : Msg → Prop
  | .registerService msg => msg.id ≤ 2147483647
  | .removeService msg => ∃ k, k ≠ toLower msg.name ∧ s.services.lookup k ≠ none
  | _ => True

/-- A message that is taken registers no id of more than 31 bits, and does not remove the
last record. -/
def KeepsSmall (cr : Crypto) (w : World) : Action → Prop
  | .msg m => ∀ s, deliver cr w.ctx m w.chain = some s → m.KeepsSmall w.chain
  | _ => True

/-- The other messages do not write to the registry. -/
theorem services_writes (services : AList fun _ : String => Service) :
    Writes fun s => s.services = services where
  contract _ _ _ _ h := h
  list _ _ _ _ h := h
  unlist _ _ h := h
  user _ _ _ _ h := h
  unuser _ _ h := h
  provider _ _ _ _ h := h
  unprovider _ _ h := h
  next _ _ h := h
  bank _ _ _ h := h
  event _ _ h := h

theorem ChainState.Small.of_services (h : s.Small) (heq : s'.services = s.services) : s'.Small := by
  unfold ChainState.Small
  rw [heq]
  exact h

/-- A record that is written. -/
theorem ChainState.Small.insert_iff (h : s.Small) (svc : Service) {e : Service → Event} :
    (s.withService ctx svc e).Small ↔ svc.id ≤ 2147483647 := by
  constructor
  · intro h'
    exact h'.2 _ svc (AList.lookup_insert _)
  · intro hid
    refine ⟨?_, h.2.insert hid⟩
    intro hempty
    have hsvc := AList.lookup_insert (a := toLower svc.name) (b := svc) s.services
    have hempty : s.services.insert (toLower svc.name) svc = ∅ := hempty
    rw [hempty, AList.lookup_empty] at hsvc
    cases hsvc

/-- A record that is removed. -/
theorem ChainState.Small.erase_iff (h : s.Small) (svc : Service) (name : String) :
    (s.withoutService ctx svc name).Small ↔
      ∃ k, k ≠ toLower name ∧ s.services.lookup k ≠ none := by
  constructor
  · intro h'
    obtain ⟨k, r, hr⟩ := AList.exists_lookup h'.1
    have hr : (s.services.erase (toLower name)).lookup k = some r := hr
    have hk : k ≠ toLower name := by
      rintro rfl
      rw [AList.lookup_erase] at hr
      cases hr
    rw [AList.lookup_erase_ne hk] at hr
    exact ⟨k, hk, by rw [hr]; exact Option.some_ne_none r⟩
  · rintro ⟨k, hk, hsome⟩
    refine ⟨?_, h.2.erase _⟩
    intro hempty
    have hempty : s.services.erase (toLower name) = ∅ := hempty
    apply hsome
    rw [← AList.lookup_erase_ne hk, hempty, AList.lookup_empty]

/-- **One message.** -/
theorem ChainState.Small.handle_iff (h : s.Small) {msg : Msg} (hmsg : msg.isRegistry = true)
    (hh : msg.handle cr ctx s = .ok () s') : msg.KeepsSmall s ↔ s'.Small := by
  cases msg with
  | registerService msg =>
    obtain ⟨-, -, rfl⟩ := registerService_ok hh
    exact (h.insert_iff msg.record).symm
  | updateService msg =>
    obtain ⟨svc, hsvc, hid, rfl⟩ := updateService_ok hh
    refine ⟨fun _ => (h.insert_iff msg.record).mpr ?_, fun _ => trivial⟩
    show msg.id ≤ 2147483647
    rw [← hid]
    exact h.2 _ svc hsvc
  | removeService msg =>
    obtain ⟨svc, -, rfl⟩ := removeService_ok hh
    rw [h.erase_iff, toLower_toLower]
    exact Iff.rfl
  | bondProvider msg | modProvider msg | openContract msg | closeContract msg
  | claimContractIncome msg => cases hmsg

/-- A message that is not of the registry keeps it small. -/
theorem Msg.keepsSmall_of_quiet {msg : Msg} (hmsg : msg.isRegistry = false) : msg.KeepsSmall s := by
  cases msg with
  | registerService msg | updateService msg | removeService msg => cases hmsg
  | bondProvider msg | modProvider msg | openContract msg | closeContract msg
  | claimContractIncome msg => trivial

/-- **One step.** -/
theorem step_small_iff (h : w.chain.Small) {act : Action} (hstep : step cr w act = some w') :
    KeepsSmall cr w act ↔ w'.chain.Small := by
  by_cases hact : ∃ m s, act = .msg m ∧ m.isRegistry = true ∧ deliver cr w.ctx m w.chain = some s
  · obtain ⟨m, s, rfl, hm, hdel⟩ := hact
    rw [step, hdel] at hstep
    obtain rfl := Option.some.inj hstep
    rw [← h.handle_iff hm (deliver_some hdel).2]
    refine ⟨fun hall => hall s hdel, fun hkeep t _ => hkeep⟩
  · -- nothing is written to the registry
    have hsame : w'.chain.services = w.chain.services := by
      refine step_preserves (services_writes w.chain.services) rfl ?_ hstep
      intro m s hm hmsg hdel
      exact absurd ⟨m, s, hm, hmsg, hdel⟩ hact
    refine ⟨fun _ => h.of_services hsame, fun _ => ?_⟩
    cases act with
    | msg m =>
      intro s hdel
      cases hm : m.isRegistry with
      | true => exact absurd ⟨m, s, rfl, hm, hdel⟩ hact
      | false => exact Msg.keepsSmall_of_quiet hm
    | send src dst coin => trivial
    | endBlock => trivial

/-- The registry is small when it has been seeded. -/
theorem seeded_small (hperm : entries.Perm (staticServices descriptions)) (hnames : s.services = ∅) :
    (s.putServices (entries.filter Service.accepted)).Small := by
  refine ⟨?_, ?_⟩
  · intro hempty
    obtain ⟨k, r, hr⟩ := seeded_nonempty hperm s
    rw [hempty, AList.lookup_empty] at hr
    cases hr
  · intro k r hr
    rw [lookup_putServices, hnames, AList.lookup_empty, Option.or_none] at hr
    have hmem := hperm.mem_iff.mp (List.mem_of_mem_filter (AList.lastWith_mem hr).1)
    have hid : r.id ∈ List.range serviceNames.length := by
      rw [← staticServices_ids descriptions]
      exact List.mem_map_of_mem hmem
    have hlength : serviceNames.length ≤ 2147483647 := by decide +kernel
    exact (List.mem_range.mp hid).le.trans hlength

/-- **When the published ids can be used.**  A registry is seeded in any order and a run
follows.  The answer of the query agrees with the messages in every state of the run if and
only if every registration that is taken has an id of 31 bits and no removal takes out the
last record. -/
theorem published_usable_iff {order : List Service}
    (hperm : entries.Perm (staticServices descriptions))
    (horder : order.Perm (staticServices descriptions)) (hnames : s₀.services = ∅)
    (hids : s₀.serviceIds = ∅) (hseed : seedServices entries s₀ = .ok () w₀.chain) :
    Runs.Guarded (step cr) (KeepsSmall cr) w₀ actions ↔
      ∀ l₁ l₂ w, actions = l₁ ++ l₂ → Runs.run (step cr) w₀ l₁ = some w →
        Usable (queryAllServices order w.chain) w.chain := by
  rw [seedServices_eq] at hseed
  injection hseed with _ hchain
  have hlisted : w₀.chain.Listed := by
    rw [← hchain]
    exact listed_putServices (staticServices_coherent hperm)
      (fun _ hsvc => (List.mem_filter.mp hsvc).2) hnames hids
  have hsmall : w₀.chain.Small := by
    rw [← hchain]
    exact seeded_small hperm hnames
  refine Runs.guarded_iff_forall (I := fun w : World => w.chain.Listed)
    (P := fun w : World => Usable (queryAllServices order w.chain) w.chain) ?_ ?_ ?_ hlisted
    ((usable_iff horder hlisted).mpr hsmall)
  · exact fun _ _ _ hl hstep => hl.step hstep
  · intro w act hnone
    obtain rfl := step_eq_none hnone
    trivial
  · intro w act w' hl hu hstep
    rw [usable_iff horder (hl.step hstep)]
    exact step_small_iff ((usable_iff horder hl).mp hu) hstep

/-- The authority can register what the setter takes under a new name and a new id. -/
theorem deliver_registerService (cr : Crypto) (ctx : Context) {msg : MsgRegisterService}
    (hauth : isAuthorityAllowed ctx msg.creator = true) (haccepted : msg.record.accepted = true)
    (hbasic : msg.validateBasic cr s = .ok () s)
    (hname : s.services.lookup (toLower msg.name) = none)
    (hid : s.serviceIds.lookup msg.id = none) :
    deliver cr ctx (.registerService msg) s =
      some (s.withService ctx msg.record .registerService) := by
  have hvalid : registerServiceValidate cr ctx msg s = .ok () s := by
    refine failIf_bind_ok.mpr ⟨by rw [hauth]; rfl, bind_ok.mpr ⟨none, s, ?_, ?_⟩⟩
    · exact getService_ok.mpr ⟨hname, rfl⟩
    · refine failIf_bind_ok.mpr ⟨rfl, bind_ok.mpr ⟨none, s, ?_, failIf_bind_ok.mpr ⟨rfl, hbasic⟩⟩⟩
      exact getServiceByID_ok.mpr ⟨by rw [hid, Option.bind_none], rfl⟩
  have hset : setService msg.record s = .ok () (s.putServices [msg.record]) := by
    rw [setService_eq, if_pos haccepted]
  apply committed_some.mpr
  refine ⟨(), bind_ok.mpr ⟨(), s, hbasic, bind_ok.mpr ⟨(), s, hvalid, ?_⟩⟩⟩
  exact bind_ok.mpr ⟨(), _, hset, rfl⟩

namespace Sample

/-- A new service with the id `id`. -/
def registerNew (id : ℕ) : MsgRegisterService where
  creator := provider.account
  id := id
  name := "Sui-Devnet-Fullnode"
  description := ""
  serviceType := ""

theorem registerNew_key (id : ℕ) : toLower (registerNew id).name = "sui-devnet-fullnode" := by
  show toLower "Sui-Devnet-Fullnode" = _
  decide

/-- The seeded chain takes an id that is not in the table. -/
theorem seeded_registerNew {id : ℕ} (hnew : serviceNames.length ≤ id) :
    step crypto seeded (.msg (.registerService (registerNew id))) =
      some { seeded with
        chain := seeded.chain.withService seeded.ctx (registerNew id).record .registerService
        accepted := [.registerService (registerNew id)] } := by
  have hne : id ≠ 0 := by
    rintro rfl
    exact absurd hnew (by decide +kernel)
  have hname : seeded.chain.services.lookup (toLower (registerNew id).name) = none := by
    rw [seeded, lookup_putServices, AList.lastWith_of_notMem]
    · rfl
    · intro hmem
      have hkeys : toLower (registerNew id).name ∈ serviceNames.map toLower := by
        rw [← staticServices_names fun _ => "", List.map_map]
        exact (List.filter_sublist.map _).subset hmem
      rw [registerNew_key] at hkeys
      exact notMem_serviceNames_lower (by decide +kernel) (by decide +kernel) hkeys
  have hid : seeded.chain.serviceIds.lookup (registerNew id).id = none := by
    rw [seeded, ChainState.putServices, AList.lookup_load, AList.lastWith_of_notMem]
    · rfl
    · intro hmem
      have hids : id ∈ List.range serviceNames.length := by
        rw [← staticServices_ids fun _ => ""]
        exact (List.filter_sublist.map _).subset hmem
      exact absurd (List.mem_range.mp hids) hnew.not_gt
  have haddr : (crypto.accAddressFromBech32 provider.account).isSome = true := by decide +kernel
  have hauth : isAuthorityAllowed seeded.ctx provider.account = true := by decide +kernel
  have hname' : isBlank "Sui-Devnet-Fullnode" = false := by decide
  have hbasic : (registerNew id).validateBasic crypto seeded.chain = .ok () seeded.chain :=
    validateService_ok.mpr ⟨⟨haddr, hne, hname'⟩, rfl⟩
  have haccepted : (registerNew id).record.accepted = true := by
    have hblank : isBlank (toLower "Sui-Devnet-Fullnode") = false := by decide
    simp [Service.accepted, MsgRegisterService.record, registerNew, hblank, hne]
  rw [step, deliver_registerService crypto seeded.ctx hauth haccepted hbasic hname hid]
  rfl

theorem seeded_run {id : ℕ} (hnew : serviceNames.length ≤ id) : ∃ w,
    Runs.run (step crypto) seeded [.msg (.registerService (registerNew id))] = some w ∧
      w.chain.services.lookup "sui-devnet-fullnode" = some (registerNew id).record ∧
      w.chain.Listed := by
  have hlisted : seeded.chain.Listed :=
    listed_putServices (staticServices_coherent (List.Perm.refl _))
      (fun _ hsvc => (List.mem_filter.mp hsvc).2) rfl rfl
  refine ⟨_, Runs.run_cons.mpr ⟨_, seeded_registerNew hnew, rfl⟩, ?_, ?_⟩
  · have hkey : toLower (registerNew id).record.name = "sui-devnet-fullnode" :=
      (toLower_toLower _).trans (registerNew_key id)
    show AList.lookup _ (AList.insert (toLower (registerNew id).record.name) _ _) = _
    rw [hkey, AList.lookup_insert]
  · exact hlisted.step (seeded_registerNew hnew)

end Sample

/-- An id of 31 bits is published as it is. -/
theorem registered_id_usable : ∃ w, Runs.run (step Sample.crypto) Sample.seeded
      [.msg (.registerService (Sample.registerNew 1000))] = some w ∧
    w.chain.services.lookup "sui-devnet-fullnode" = some (Sample.registerNew 1000).record ∧
    Usable (queryAllServices (staticServices fun _ => "") w.chain) w.chain := by
  have hseed : seedServices (staticServices fun _ => "") {} = .ok () Sample.seeded.chain :=
    seedServices_eq _
  have hguard : Runs.Guarded (step Sample.crypto) (KeepsSmall Sample.crypto) Sample.seeded
      [.msg (.registerService (Sample.registerNew 1000))] := by
    refine ⟨fun _ _ => ?_, fun _ _ => trivial⟩
    show 1000 ≤ 2147483647
    decide
  have hnew : serviceNames.length ≤ 1000 := by decide +kernel
  obtain ⟨w, hrun, hw, -⟩ := Sample.seeded_run hnew
  have husable :=
    (published_usable_iff (List.Perm.refl _) (List.Perm.refl _) rfl rfl hseed).mp hguard
  exact ⟨w, hrun, hw, husable _ [] w (List.append_nil _).symm hrun⟩

/-- **A large id is published as that of another service.**  The id `4294967306` is
registered, and published as `10`, which is the id of `btc-mainnet-fullnode`. -/
theorem large_id_published : ∃ w, Runs.run (step Sample.crypto) Sample.seeded
      [.msg (.registerService (Sample.registerNew 4294967306))] = some w ∧
    (∃ e ∈ queryAllServices (staticServices fun _ => "") w.chain,
      e.name = "sui-devnet-fullnode" ∧ e.serviceId = 10) ∧
    ¬Usable (queryAllServices (staticServices fun _ => "") w.chain) w.chain := by
  have hnew : serviceNames.length ≤ 4294967306 := by decide +kernel
  obtain ⟨w, hrun, hw, hl⟩ := Sample.seeded_run hnew
  refine ⟨w, hrun, ?_, ?_⟩
  · rw [queryAllServices_eq, w.chain.queried_of_lookup _ hw]
    exact ⟨_, mem_publish.mpr ⟨_, _, hw, rfl⟩, by decide, by decide⟩
  · rw [usable_iff (List.Perm.refl _) hl]
    intro hsmall
    have hid : 4294967306 ≤ 2147483647 := hsmall.2 _ _ hw
    exact absurd hid (by decide)

end Arkeo
