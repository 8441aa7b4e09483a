import Arkeo.SecondaryIndex
import Arkeo.Writes

/-! # The registry of services

A service is stored under its name in lower case, and the name is found by the id.  Seeding
writes the static table in whatever order a map is walked; registering wants a new name and
a new id, updating the id that is there, and removing takes out both.  So names and ids stay
inverse to each other over every run (`registry_bijective`).
-/
namespace Arkeo
open Exec

variable {cr : Crypto} {ctx : Context} {s s' s₀ : ChainState} {w₀ w : World} {actions : List Action}

/-! ## Seeding -/

/-- The records of the static table.  The descriptions are those of `ServiceDescriptionMap`. -/
def staticServices (descriptions : String → String) : List Service :=
  serviceNames.zipIdx.map fun e => { id := e.2, name := e.1, description := descriptions e.1 }

/-- The loop that seeds the registry; what `SetService` refuses is passed over. -/
def seedServices (entries : List Service) : Keeper Unit :=
  forEach (fun svc => logged (setService svc)) entries

/-- What `SetService` takes. -/
def Service.accepted (svc : Service) : Bool := !isBlank svc.name && svc.id ≠ 0

def Service.key (svc : Service) : String := toLower svc.name

/-- The store after records are written. -/
def ChainState.putServices (l : List Service) (s : ChainState) : ChainState :=
  { s with
    services := AList.load Service.key id l s.services
    serviceIds := AList.load Service.id Service.key l s.serviceIds }

theorem lookup_putServices (l : List Service) (s : ChainState) (name : String) :
    (s.putServices l).services.lookup name =
      (AList.lastWith Service.key l name).or (s.services.lookup name) := by
  unfold ChainState.putServices
  rw [AList.lookup_load, Option.map_id_fun, id_eq]

theorem setService_eq (svc : Service) : setService svc s =
    if svc.accepted = true then .ok () (s.putServices [svc])
    else .error (Fault.err Err.plain) s := by
  unfold Service.accepted
  change EStateM.bind (failIf (isBlank svc.name) (Fault.err Err.plain)) _ s = _
  cases isBlank svc.name with
  | true => rfl
  | false =>
    change EStateM.bind (failIf (decide (svc.id = 0)) (Fault.err Err.plain)) _ s = _
    by_cases hid : svc.id = 0
    · rw [decide_eq_true hid, hid]
      rfl
    · rw [decide_eq_false hid, if_pos (by simpa using hid)]
      rfl

theorem setService_logged (svc : Service) : logged (setService svc) s =
    .ok () (if svc.accepted = true then s.putServices [svc] else s) := by
  rw [logged, setService_eq]
  by_cases ha : svc.accepted = true
  · rw [if_pos ha, if_pos ha]
  · rw [if_neg ha, if_neg ha]

/-- **What seeding leaves**: the records that are taken, one after the other. -/
theorem seedServices_eq (entries : List Service) :
    seedServices entries s = .ok () (s.putServices (entries.filter Service.accepted)) := by
  induction entries generalizing s with
  | nil => rfl
  | cons svc entries ih =>
    change EStateM.bind (logged (setService svc)) (fun _ => seedServices entries) s = _
    unfold EStateM.bind
    rw [setService_logged]
    simp only [ih]
    by_cases ha : svc.accepted = true
    · rw [if_pos ha, List.filter_cons_of_pos ha]
      rfl
    · rw [if_neg ha, List.filter_cons_of_neg ha]

/-! ## The invariant -/

/-- Records are stored under their names, and the two stores are inverse. -/
structure RegistryInv (services : AList fun _ : String => Service)
    (serviceIds : AList fun _ : ℕ => String) : Prop where
  keyed : ∀ k r, services.lookup k = some r → r.key = k
  inverse : SecondaryIndex.Inverse Service.id services serviceIds

/-- The registry of a store. -/
def ChainState.Registered (s : ChainState) : Prop := RegistryInv s.services s.serviceIds

theorem RegistryInv.toLower_key {services serviceIds} (h : RegistryInv services serviceIds)
    {k : String} {r : Service} (hr : services.lookup k = some r) : toLower k = k := by
  rw [← h.keyed k r hr]
  exact toLower_toLower _

theorem registered_putServices {l : List Service} (hc : SecondaryIndex.Coherent Service.key Service.id l)
    (hnames : s₀.services = ∅) (hids : s₀.serviceIds = ∅) : (s₀.putServices l).Registered := by
  unfold ChainState.Registered ChainState.putServices
  rw [hnames, hids]
  refine ⟨?_, SecondaryIndex.inverse_load hc⟩
  intro k r hr
  rw [AList.lookup_load, AList.lookup_empty, Option.or_none, Option.map_id_fun, id_eq] at hr
  exact (AList.lastWith_mem hr).2

theorem ChainState.Registered.register (h : s.Registered) {msg : MsgRegisterService} {u : Unit}
    (hok : registerService cr ctx msg s = .ok u s') : s'.Registered := by
  obtain ⟨hname, hid, rfl⟩ := registerService_ok hok
  have hkey : msg.record.key = toLower msg.name := toLower_toLower _
  refine ⟨AList.All.insert h.keyed rfl, ?_⟩
  · refine h.inverse.insert ?_ ?_
    · exact (congrArg (fun k => s.services.lookup k) hkey).trans hname
    · -- an entry of the index leads to a record, which the message would have been refused for
      cases hindex : s.serviceIds.lookup msg.record.id with
      | none => rfl
      | some name =>
        obtain ⟨r, hr, -⟩ := h.inverse.points _ name hindex
        obtain ⟨hnone, -⟩ := getServiceByID_ok.mp hid
        have hlookup : s.serviceIds.lookup msg.id = some name := hindex
        rw [hlookup, Option.bind_some, h.toLower_key hr, hr] at hnone
        cases hnone

theorem ChainState.Registered.update (h : s.Registered) {msg : MsgUpdateService} {u : Unit}
    (hok : updateService cr ctx msg s = .ok u s') : s'.Registered := by
  obtain ⟨svc, hsvc, hid, rfl⟩ := updateService_ok hok
  have hkey : msg.record.key = toLower msg.name := toLower_toLower _
  rw [← hkey] at hsvc
  exact ⟨AList.All.insert h.keyed rfl, h.inverse.replace hsvc hid⟩

theorem ChainState.Registered.remove (h : s.Registered) {msg : MsgRemoveService} {u : Unit}
    (hok : removeService cr ctx msg s = .ok u s') : s'.Registered := by
  obtain ⟨svc, hsvc, rfl⟩ := removeService_ok hok
  have hkey : toLower (toLower msg.name) = toLower msg.name := toLower_toLower _
  refine ⟨AList.All.erase h.keyed _, ?_⟩
  change SecondaryIndex.Inverse Service.id (s.services.erase (toLower (toLower msg.name))) _
  rw [hkey]
  exact h.inverse.erase hsvc

/-- A record of the registry that went through the setter. -/
theorem setService_bind_accepted {svc : Service} {f : Unit → Keeper Unit} {u : Unit}
    (h : (setService svc >>= f) s = .ok u s') : svc.accepted = true := by
  obtain ⟨_, _, hset, -⟩ := bind_ok.mp h
  rw [setService_eq] at hset
  by_contra hne
  rw [if_neg hne] at hset
  cases hset

/-- A registry with its index, of records that the setter takes. -/
structure ChainState.Listed (s : ChainState) : Prop where
  registered : s.Registered
  accepted : s.services.All fun _ svc => svc.accepted = true

/-- The other writes of the module leave the registry alone. -/
theorem listed_writes : Writes ChainState.Listed where
  contract _ _ _ _ h := ⟨h.registered, h.accepted⟩
  list _ _ _ _ h := ⟨h.registered, h.accepted⟩
  unlist _ _ h := ⟨h.registered, h.accepted⟩
  user _ _ _ _ h := ⟨h.registered, h.accepted⟩
  unuser _ _ h := ⟨h.registered, h.accepted⟩
  provider _ _ _ _ h := ⟨h.registered, h.accepted⟩
  unprovider _ _ h := ⟨h.registered, h.accepted⟩
  next _ _ h := ⟨h.registered, h.accepted⟩
  bank _ _ _ h := ⟨h.registered, h.accepted⟩
  event _ _ h := ⟨h.registered, h.accepted⟩

/-- A message of the registry stores what the setter takes. -/
theorem ChainState.Listed.handle (h : s.Listed) {msg : Msg} (hmsg : msg.isRegistry = true)
    (hh : msg.handle cr ctx s = .ok () s') : s'.Listed := by
  cases msg with
  | registerService msg =>
    have hreg := h.registered.register hh
    obtain ⟨_, _, -, hhandle⟩ := bind_ok.mp hh
    have haccepted := setService_bind_accepted hhandle
    obtain ⟨-, -, rfl⟩ := registerService_ok hh
    exact ⟨hreg, h.accepted.insert haccepted⟩
  | updateService msg =>
    have hreg := h.registered.update hh
    obtain ⟨_, _, -, hhandle⟩ := bind_ok.mp hh
    have haccepted := setService_bind_accepted hhandle
    obtain ⟨-, -, -, rfl⟩ := updateService_ok hh
    exact ⟨hreg, h.accepted.insert haccepted⟩
  | removeService msg =>
    have hreg := h.registered.remove hh
    obtain ⟨svc, -, rfl⟩ := removeService_ok hh
    exact ⟨hreg, h.accepted.erase _⟩
  | bondProvider msg | modProvider msg | openContract msg | closeContract msg
  | claimContractIncome msg => cases hmsg

/-- **One step.**  Messages and blocks keep the registry inverse. -/
theorem ChainState.Listed.step {w w' : World} {act : Action} (h : w.chain.Listed)
    (hstep : Arkeo.step cr w act = some w') : w'.chain.Listed :=
  step_preserves listed_writes h (fun _ _ _ hmsg hdel => h.handle hmsg (deliver_some hdel).2) hstep

/-- What an empty registry is seeded with. -/
theorem listed_putServices {l : List Service} (hc : SecondaryIndex.Coherent Service.key Service.id l)
    (hl : ∀ svc ∈ l, svc.accepted = true) (hnames : s₀.services = ∅) (hids : s₀.serviceIds = ∅) :
    (s₀.putServices l).Listed := by
  refine ⟨registered_putServices hc hnames hids, ?_⟩
  intro name svc hsvc
  rw [lookup_putServices, hnames, AList.lookup_empty, Option.or_none] at hsvc
  exact hl svc (AList.lastWith_mem hsvc).1

/-! ## Both ways -/

/-- Names and ids are inverse to each other, as the keeper reads them. -/
structure Bijective (s : ChainState) : Prop where
  uniqueIds : ∀ k r k' r', s.services.lookup k = some r → s.services.lookup k' = some r' →
    r.id = r'.id → k = k'
  uniqueNames : ∀ k r k' r', s.services.lookup k = some r → s.services.lookup k' = some r' →
    toLower r.name = toLower r'.name → k = k'
  byID : ∀ k r, s.services.lookup k = some r → getServiceByID r.id s = .ok (some r) s
  byName : ∀ k r, s.services.lookup k = some r → getService r.name s = .ok (some r) s
  points : ∀ id name, s.serviceIds.lookup id = some name →
    ∃ r, s.services.lookup name = some r ∧ r.id = id

theorem ChainState.Registered.bijective (h : s.Registered) : Bijective s where
  uniqueIds _ _ _ _ hr hr' hid := h.inverse.key_eq hr hr' hid
  uniqueNames k r k' r' hr hr' hname := by
    rw [← h.keyed k r hr, ← h.keyed k' r' hr']
    exact hname
  byID k r hr := by
    refine getServiceByID_ok.mpr ⟨?_, rfl⟩
    rw [h.inverse.indexed k r hr, Option.bind_some, h.toLower_key hr, hr]
  byName k r hr := by
    refine getService_ok.mpr ⟨?_, rfl⟩
    have hkey : toLower r.name = k := h.keyed k r hr
    rw [hkey, hr]
  points := h.inverse.points

/-- What an accepted removal leaves under the name and under the id. -/
theorem removeService_unresolved {msg : MsgRemoveService} {u : Unit}
    (hok : removeService cr ctx msg s = .ok u s') :
    ∃ svc, getService msg.name s = .ok (some svc) s ∧ getService msg.name s' = .ok none s' ∧
      getServiceByID svc.id s' = .ok none s' := by
  obtain ⟨svc, hsvc, rfl⟩ := removeService_ok hok
  refine ⟨svc, getService_ok.mpr ⟨hsvc, rfl⟩, getService_ok.mpr ⟨?_, rfl⟩,
    getServiceByID_ok.mpr ⟨?_, rfl⟩⟩
  · change (s.services.erase (toLower (toLower msg.name))).lookup (toLower msg.name) = none
    rw [toLower_toLower, AList.lookup_erase]
  · change ((s.serviceIds.erase svc.id).lookup svc.id).bind _ = none
    rw [AList.lookup_erase, Option.bind_none]

theorem staticServices_names (descriptions : String → String) :
    (staticServices descriptions).map Service.name = serviceNames := by
  rw [staticServices, List.map_map]
  exact List.zipIdx_map_fst 0 serviceNames

theorem staticServices_ids (descriptions : String → String) :
    (staticServices descriptions).map Service.id = List.range serviceNames.length := by
  rw [staticServices, List.map_map, List.range_eq_range']
  exact List.zipIdx_map_snd 0 serviceNames

theorem staticServices_mem (descriptions : String → String) {n : ℕ} {name : String}
    (h : serviceNames[n]? = some name) :
    { id := n, name := name, description := descriptions name } ∈ staticServices descriptions :=
  List.mem_map.mpr ⟨(name, n), List.mk_mem_zipIdx_iff_getElem?.mpr h, rfl⟩

/-- The table has no name twice, in whatever order it is written. -/
theorem staticServices_keys {descriptions : String → String} {entries : List Service}
    (hperm : entries.Perm (staticServices descriptions)) :
    ((entries.filter Service.accepted).map Service.key).Nodup := by
  have hkeys : (staticServices descriptions).map Service.key = serviceNames.map toLower := by
    rw [← staticServices_names descriptions, List.map_map]
    rfl
  have hnodup : (entries.map Service.key).Nodup := by
    refine (hperm.map _).nodup_iff.mpr ?_
    rw [hkeys]
    exact serviceNames_lower_nodup
  exact hnodup.sublist (List.filter_sublist.map _)

theorem staticServices_coherent {descriptions : String → String} {entries : List Service}
    (hperm : entries.Perm (staticServices descriptions)) :
    SecondaryIndex.Coherent Service.key Service.id (entries.filter Service.accepted) := by
  have hids : (entries.map Service.id).Nodup := by
    refine (hperm.map _).nodup_iff.mpr ?_
    rw [staticServices_ids]
    exact List.nodup_range
  exact SecondaryIndex.coherent_of_nodup (staticServices_keys hperm)
    (hids.sublist (List.filter_sublist.map _))

/-- **The registry is a bijection.**  After seeding in any order and any run, names and ids
are inverse to each other, and a name that is removed leads to nothing, as does its id. -/
theorem registry_bijective {descriptions : String → String} {entries : List Service}
    (hperm : entries.Perm (staticServices descriptions)) (hnames : s₀.services = ∅)
    (hids : s₀.serviceIds = ∅) (hseed : seedServices entries s₀ = .ok () w₀.chain)
    (hrun : Runs.run (step cr) w₀ actions = some w) :
    Bijective w.chain ∧ ∀ msg s', deliver cr w.ctx (.removeService msg) w.chain = some s' →
      Bijective s' ∧ ∃ svc, getService msg.name w.chain = .ok (some svc) w.chain ∧
        getService msg.name s' = .ok none s' ∧ getServiceByID svc.id s' = .ok none s' := by
  rw [seedServices_eq] at hseed
  have hstart : w₀.chain.Listed := by
    injection hseed with _ hchain
    rw [← hchain]
    exact listed_putServices (staticServices_coherent hperm)
      (fun _ hsvc => (List.mem_filter.mp hsvc).2) hnames hids
  have hlisted : w.chain.Listed := by
    refine Runs.run_induct (P := fun w => w.chain.Listed) ?_ hstart hrun
    exact fun _ _ _ h hstep => h.step hstep
  have hreg := hlisted.registered
  refine ⟨hreg.bijective, ?_⟩
  intro msg s' hdel
  obtain ⟨-, hh⟩ := deliver_some hdel
  exact ⟨(hreg.remove hh).bijective, removeService_unresolved hh⟩

/-- The authority can remove whatever is stored. -/
theorem deliver_removeService (cr : Crypto) (ctx : Context) {msg : MsgRemoveService} {svc : Service}
    (hauth : isAuthorityAllowed ctx msg.creator = true)
    (hbasic : msg.validateBasic cr s = .ok () s)
    (hsvc : s.services.lookup (toLower msg.name) = some svc) :
    ∃ s', deliver cr ctx (.removeService msg) s = some s' := by
  have hvalid : removeServiceValidate cr ctx msg s = .ok () s := by
    refine failIf_bind_ok.mpr ⟨by rw [hauth]; rfl, bind_ok.mpr ⟨some svc, s, ?_, ?_⟩⟩
    · exact getService_ok.mpr ⟨hsvc, rfl⟩
    · exact ofOption_bind_ok.mpr ⟨svc, rfl, hbasic⟩
  obtain ⟨s', hhandle⟩ : ∃ s', removeServiceHandle ctx msg s = .ok () s' := ⟨_, rfl⟩
  refine ⟨s', committed_some.mpr ⟨(), bind_ok.mpr ⟨(), s, hbasic, ?_⟩⟩⟩
  exact bind_ok.mpr ⟨(), s, hvalid, hhandle⟩

namespace Sample

/-- An empty store is seeded in the order of the table. -/
def seeded : World where
  ctx := { genesis.ctx with authority := provider.account }
  chain := ChainState.putServices ((staticServices fun _ => "").filter Service.accepted) {}

def removeMumbai : MsgRemoveService where
  creator := provider.account
  name := "Polygon-MUMBAI-testnet-fullnode"

theorem seeded_mumbai : seeded.chain.services.lookup (toLower removeMumbai.name) =
    some { id := 289, name := "polygon-Mumbai-testnet-fullnode" } := by
  have hmem : { id := 289, name := "polygon-Mumbai-testnet-fullnode" } ∈
      (staticServices fun _ => "").filter Service.accepted :=
    List.mem_filter.mpr ⟨staticServices_mem (fun _ => "") (by decide +kernel), by decide +kernel⟩
  have hlast := AList.lastWith_of_nodup (staticServices_keys (List.Perm.refl _)) hmem
  have hkey : toLower removeMumbai.name =
      Service.key { id := 289, name := "polygon-Mumbai-testnet-fullnode" } := by decide +kernel
  rw [seeded, lookup_putServices, hkey, hlast, Option.some_or]

end Sample

/-- A service whose name has capitals is removed under yet another spelling. -/
theorem seeded_bijective : ∃ w, Runs.run (step Sample.crypto) Sample.seeded
      [.msg (.removeService Sample.removeMumbai)] = some w ∧
    getService Sample.removeMumbai.name w.chain = .ok none w.chain ∧ Bijective w.chain := by
  have hseed : seedServices (staticServices fun _ => "") {} = .ok () Sample.seeded.chain :=
    seedServices_eq _
  obtain ⟨s', hdel⟩ := deliver_removeService Sample.crypto Sample.seeded.ctx (by decide +kernel)
    (MsgRemoveService.validateBasic_ok.mpr ⟨by decide +kernel, rfl⟩) Sample.seeded_mumbai
  have hrun : Runs.run (step Sample.crypto) Sample.seeded
      [.msg (.removeService Sample.removeMumbai)] =
        some { Sample.seeded with chain := s', accepted := [.removeService Sample.removeMumbai] } := by
    refine Runs.run_cons.mpr ⟨_, ?_, rfl⟩
    rw [step, hdel]
    rfl
  have hnone : Runs.run (step Sample.crypto) Sample.seeded [] = some Sample.seeded := rfl
  have hbefore := registry_bijective (List.Perm.refl _) rfl rfl hseed hnone
  obtain ⟨hs', svc, -, hname, -⟩ := hbefore.2 _ _ hdel
  exact ⟨_, hrun, hname, hs'⟩

end Arkeo
