import Arkeo.Sentinel.Claimable
import Arkeo.Sentinel.Domains
import Arkeo.Sentinel.Memory

/-! # The settings of a contract

The client of a contract changes its settings with a request that names the contract
in the URL and carries `<contract>:<timestamp>:<signature>`.  The signature is tested
with the key of the client of the contract in the URL, over the contract in the
credentials, and the two are not compared.  Where they are the same, settings change
only by order of the contract's own client, and no credentials are taken twice
(`settings_authenticated`); where they are not, credentials for one contract of a
client open all the others (`settings_changed_by_foreign_credentials`).
-/
namespace Arkeo.Sentinel
open Exec Text

variable {cr : Crypto} {hub : Hub} {s s' : State} {k id : ℕ} {auth : ContractAuth}
variable {chain : ℕ → Option Contract}

/-- A request for the settings of a contract: the id in the URL, the credentials, and
what is to be done. -/
structure SettingsRequest where
  id : String
  raw : String
  method : Method
  deriving DecidableEq, Repr

variable {q : SettingsRequest}

/-- The contract and the credentials of a request that passes the tests of
`handleContract`. -/
def accepts (cr : Crypto) (hub : Hub) (q : SettingsRequest) (s : State) :
    Option (ℕ × ContractAuth) :=
  match read (parseUint q.id), parseContractAuth q.raw with
  | some id, some auth =>
      if q.raw = "" then none
      else match (memStoreGet hub (configGet id s).contractId s).1 with
        | none => none
        | some c =>
            match auth.validate cr (configGet id s).lastTimeStamp c.client with
            | .error _ => none
            | .ok () => some (id, auth)
  | _, _ => none

/-- What it takes to be accepted. -/
theorem accepts_some (h : accepts cr hub q s = some (id, auth)) :
    read (parseUint q.id) = some id ∧ parseContractAuth q.raw = some auth ∧ q.raw ≠ "" ∧
    ∃ c, (memStoreGet hub (configGet id s).contractId s).1 = some c ∧
      auth.validate cr (configGet id s).lastTimeStamp c.client = .ok () := by
  unfold accepts at h
  split at h
  · rename_i id' auth' hid hauth
    split at h
    · cases h
    · rename_i hraw
      split at h
      · cases h
      · rename_i c hc
        split at h
        · cases h
        · rename_i hv
          cases h
          exact ⟨hid, hauth, hraw, c, hc, hv⟩
  · cases h

theorem ContractAuth.validate_newer {last : Int64} {client : PubKey} {u : Unit}
    (h : auth.validate cr last client = .ok u) : last < auth.timestamp := by
  unfold validate at h
  split at h
  · cases h
  split at h
  · cases h
  · rename_i hle
    exact Int64.not_le.mp hle

/-! ## What a request does -/

/-- Settings are kept under their own ids. -/
def State.ConfigsKeyed (s : State) : Prop :=
  ∀ key conf, s.configs.lookup key = some conf → conf.contractId = key

theorem State.ConfigsKeyed.get (h : s.ConfigsKeyed) (id : ℕ) : (configGet id s).contractId = id := by
  unfold configGet
  cases hl : s.configs.lookup id with
  | none => rfl
  | some conf => exact h id conf hl

theorem configGet_configSet (conf : ContractConfiguration) (s : State) (j : ℕ) :
    configGet j (configSet conf s) = if j = conf.contractId then conf else configGet j s := by
  unfold configGet configSet
  by_cases hj : j = conf.contractId
  · rw [if_pos hj, hj]
    simp only [AList.lookup_insert, Option.getD_some]
  · rw [if_neg hj]
    simp only [AList.lookup_insert_ne hj]

theorem State.ConfigsKeyed.set (h : s.ConfigsKeyed) (conf : ContractConfiguration) :
    (configSet conf s).ConfigsKeyed := by
  intro key c hl
  unfold configSet at hl
  simp only at hl
  by_cases hk : key = conf.contractId
  · rw [hk, AList.lookup_insert] at hl
    cases hl
    exact hk.symm
  · rw [AList.lookup_insert_ne hk] at hl
    exact h key c hl

theorem State.ConfigsKeyed.of_eq (h : s.ConfigsKeyed) (he : s'.configs = s.configs) :
    s'.ConfigsKeyed := by
  intro key conf hl
  rw [he] at hl
  exact h key conf hl

theorem configGet_of_eq (he : s'.configs = s.configs) (j : ℕ) : configGet j s' = configGet j s := by
  unfold configGet
  rw [he]

/-- A request that is not accepted leaves all settings alone. -/
theorem handleContract_of_rejected (h : accepts cr hub q s = none) :
    (handleContract cr hub q.id q.raw q.method s).2.configs = s.configs := by
  unfold accepts at h
  unfold handleContract
  cases hid : read (parseUint q.id) with
  | none => rfl
  | some id =>
    cases hauth : parseContractAuth q.raw with
    | none => rfl
    | some auth =>
      rw [hid, hauth] at h
      simp only at h ⊢
      split
      · rfl
      · rename_i hraw
        rw [if_neg hraw] at h
        have hconf := memStoreGet_configs hub (configGet id s).contractId s
        split
        · rename_i t hg
          rw [hg] at hconf
          exact hconf
        · rename_i c t hg
          rw [hg] at hconf h
          simp only at h
          split
          · exact hconf
          · rename_i hv
            rw [hv] at h
            cases h

/-- One that is accepted writes the settings of its contract, with its timestamp. -/
theorem handleContract_of_accepted (h : accepts cr hub q s = some (id, auth)) : ∃ conf,
    conf.contractId = (configGet id s).contractId ∧ conf.lastTimeStamp = auth.timestamp ∧
    (∀ j, configGet j (handleContract cr hub q.id q.raw q.method s).2 =
      if j = conf.contractId then conf else configGet j s) ∧
    (s.ConfigsKeyed → (handleContract cr hub q.id q.raw q.method s).2.ConfigsKeyed) := by
  obtain ⟨hid, hauth, hraw, c, hc, hv⟩ := accepts_some h
  have hconf := memStoreGet_configs hub (configGet id s).contractId s
  rcases hg : memStoreGet hub (configGet id s).contractId s with ⟨found, t⟩
  rw [hg] at hc hconf
  simp only at hc hconf
  subst hc
  have hget : ∀ j, configGet j t = configGet j s := configGet_of_eq hconf
  have hkeyed : s.ConfigsKeyed → t.ConfigsKeyed := fun hs => hs.of_eq hconf
  unfold handleContract
  rw [hid, hauth]
  simp only [if_neg hraw, hg, hv]
  -- the timestamp is written before the method is looked at
  have hstamp : ∀ j, configGet j
      (configSet { configGet id s with lastTimeStamp := auth.timestamp } t) =
        if j = (configGet id s).contractId then
          { configGet id s with lastTimeStamp := auth.timestamp } else configGet j s := by
    intro j
    rw [configGet_configSet, hget]
  have hone : ∃ conf : ContractConfiguration, conf.contractId = (configGet id s).contractId ∧
      conf.lastTimeStamp = auth.timestamp ∧
      (∀ j, configGet j (configSet { configGet id s with lastTimeStamp := auth.timestamp } t) =
        if j = conf.contractId then conf else configGet j s) ∧
      (s.ConfigsKeyed →
        (configSet { configGet id s with lastTimeStamp := auth.timestamp } t).ConfigsKeyed) :=
    ⟨{ configGet id s with lastTimeStamp := auth.timestamp }, rfl, rfl, hstamp,
      fun hs => (hkeyed hs).set _⟩
  cases q.method with
  | get => exact hone
  | other => exact hone
  | post ips =>
    cases ips with
    | none => exact hone
    | some ips =>
      refine ⟨{ configGet id s with
        lastTimeStamp := auth.timestamp, whitelistIPAddresses := ips }, rfl, rfl, ?_, ?_⟩
      · intro j
        rw [configGet_configSet, hstamp]
        split <;> rfl
      · intro hs
        exact ((hkeyed hs).set _).set _

/-! ## Runs -/

/-- The sentinel and the requests it has accepted: the contract in the URL, the
credentials as they were sent, and what they say. -/
structure Settings where
  state : State := {}
  accepted : List (ℕ × String × ContractAuth) := []

/-- The next request is handled. -/
def manage (cr : Crypto) (hub : Hub) (w : Settings) (q : SettingsRequest) : Option Settings :=
  some
    { state := (handleContract cr hub q.id q.raw q.method w.state).2
      accepted := match accepts cr hub q w.state with
        | some (id, auth) => w.accepted ++ [(id, q.raw, auth)]
        | none => w.accepted }

/-- The hub answers with the contract of the chain, or with an error body. -/
def Knows (chain : ℕ → Option Contract) (hub : Hub) : Prop :=
  ∀ n k r, hub n k = some r →
    r = {} ∨ r.contract.id = k ∧ ∃ c, chain k = some c ∧ r.contract.client = c.client

/-- The credentials are signed by the client of the contract, name the contract, and
are later than all that were accepted for it. -/
def Authorizes (cr : Crypto) (chain : ℕ → Option Contract) (w : Settings) (raw : String)
    (k : ℕ) : Prop :=
  ∃ auth c pk, parseContractAuth raw = some auth ∧ chain k = some c ∧
    cr.getPubKeyFromBech32 c.client = some pk ∧ auth.contractId = k ∧
    cr.verifySignature pk (getBytesToSign k auth.timestamp "") auth.signature = true ∧
    ∀ x ∈ w.accepted, x.1 = k → x.2.2.timestamp < auth.timestamp

/-- **The guard.**  The credentials of a request that is accepted name the contract in
the URL. -/
def NamesItsOwn (cr : Crypto) (hub : Hub) (w : Settings) (q : SettingsRequest) : Prop :=
  ∀ id auth, accepts cr hub q w.state = some (id, auth) → auth.contractId = id

/-- What is kept: settings under their own ids, the clients of the chain in memory,
and timestamps that bound what was accepted. -/
structure Settings.Inv (chain : ℕ → Option Contract) (w : Settings) : Prop where
  keyed : w.state.ConfigsKeyed
  memory : Holds (fun k cc => ∃ c, chain k = some c ∧ cc.client = c.client) w.state
  last : ∀ x ∈ w.accepted, x.2.2.timestamp ≤ (configGet x.1 w.state).lastTimeStamp
  own : ∀ x ∈ w.accepted, x.2.2.contractId = x.1 ∧ parseContractAuth x.2.1 = some x.2.2
  once : (w.accepted.map fun x => x.2.1).Nodup

variable {w w' : Settings}

/-- An accepted request is authorized by the client of the contract in the URL. -/
theorem Settings.Inv.authorizes (h : w.Inv chain) (hk : Knows chain hub)
    (hempty : cr.getPubKeyFromBech32 "" = none) (hg : NamesItsOwn cr hub w q)
    (ha : accepts cr hub q w.state = some (id, auth)) : Authorizes cr chain w q.raw id := by
  obtain ⟨-, hauth, -, c, hc, hv⟩ := accepts_some ha
  obtain ⟨pk, hpk, hsig⟩ := ContractAuth.validate_ok hv
  rw [h.keyed.get] at hc
  obtain ⟨-, hfound⟩ := h.memory.found (k := id) fun _ n r => hk n id r
  rcases hfound c hc with rfl | ⟨-, d, hd, hclient⟩
  · -- an error body has no client
    rw [show (FetchContract.contract {}).client = "" from rfl, hempty] at hpk
    cases hpk
  · rw [hclient] at hpk
    rw [parseContractAuth_chainId hauth, hg id auth ha] at hsig
    refine ⟨auth, d, pk, hauth, hd, hpk, hg id auth ha, hsig, ?_⟩
    rintro x hx rfl
    exact Int64.lt_of_le_of_lt (h.last x hx) (ContractAuth.validate_newer hv)

/-- **One request** that names its own contract changes the settings of a contract
only if its client has authorized it. -/
theorem manage_inv (h : w.Inv chain) (hk : Knows chain hub)
    (hempty : cr.getPubKeyFromBech32 "" = none) (hg : NamesItsOwn cr hub w q)
    (hs : manage cr hub w q = some w') : w'.Inv chain ∧
      ∀ k, configGet k w'.state ≠ configGet k w.state → Authorizes cr chain w q.raw k := by
  have hmem : Holds (fun k cc => ∃ c, chain k = some c ∧ cc.client = c.client)
      (handleContract cr hub q.id q.raw q.method w.state).2 := by
    refine h.memory.handleContract q.method ?_
    intro n _ _ i r t hr hexp
    rcases hk i _ r hr with rfl | hans
    · rw [isExpired_zero] at hexp
      cases hexp
    · exact hans
  unfold manage at hs
  cases ha : accepts cr hub q w.state with
  | none =>
    rw [ha] at hs
    obtain rfl := Option.some.inj hs
    have hconf := handleContract_of_rejected ha
    refine ⟨⟨h.keyed.of_eq hconf, hmem, ?_, h.own, h.once⟩, ?_⟩
    · intro x hx
      rw [configGet_of_eq hconf]
      exact h.last x hx
    · intro k hne
      exact absurd (configGet_of_eq hconf k) hne
  | some x =>
    obtain ⟨id, auth⟩ := x
    rw [ha] at hs
    obtain rfl := Option.some.inj hs
    obtain ⟨conf, hcid, hstamp, hget, hkeyed⟩ := handleContract_of_accepted ha
    rw [h.keyed.get] at hcid
    have hauth := h.authorizes hk hempty hg ha
    obtain ⟨auth', c, pk, hparse, -, -, hown, -, hnewer⟩ := hauth
    have hparsed := (accepts_some ha).2.1
    obtain rfl : auth = auth' := Option.some.inj (hparsed.symm.trans hparse)
    refine ⟨⟨hkeyed h.keyed, hmem, ?_, ?_, ?_⟩, ?_⟩
    · intro x hx
      rw [hget]
      rcases List.mem_append.mp hx with hx | hx
      · by_cases hxid : x.1 = conf.contractId
        · rw [if_pos hxid, hstamp]
          exact Int64.le_of_lt (hnewer x hx (hxid.trans hcid))
        · rw [if_neg hxid]
          exact h.last x hx
      · rw [List.mem_singleton.mp hx, if_pos hcid.symm, hstamp]
        exact Int64.le_refl _
    · intro x hx
      rcases List.mem_append.mp hx with hx | hx
      · exact h.own x hx
      · rw [List.mem_singleton.mp hx]
        exact ⟨hown, hparse⟩
    · rw [List.map_append, List.map_singleton]
      refine List.Nodup.append h.once (List.nodup_singleton _) ?_
      intro raw hraw hmem
      obtain ⟨x, hx, hxraw⟩ := List.mem_map.mp hraw
      -- the same credentials name the same contract and have the same timestamp
      obtain ⟨hxid, hxparse⟩ := h.own x hx
      rw [hxraw, List.mem_singleton.mp hmem, hparse] at hxparse
      obtain hxauth := Option.some.inj hxparse
      have hlt := hnewer x hx (by rw [← hxid, ← hxauth, hown])
      rw [← hxauth] at hlt
      exact Int64.lt_irrefl hlt
    · intro k hne
      rw [hget] at hne
      by_cases hkid : k = conf.contractId
      · rw [hkid, hcid]
        exact h.authorizes hk hempty hg ha
      · rw [if_neg hkid] at hne
        exact absurd rfl hne

/-- **Settings are authenticated.**  In a run of settings requests each of which, if it
is accepted, names the contract of its URL, the settings of a contract change only on
a request signed by its client over its own id and a timestamp larger than all that
were accepted for it, and no credentials are accepted twice. -/
theorem settings_authenticated (hk : Knows chain hub) (hempty : cr.getPubKeyFromBech32 "" = none)
    {qs : List SettingsRequest}
    (hg : Runs.Guarded (manage cr hub) (NamesItsOwn cr hub) {} (qs ++ [q]))
    (hrun : Runs.run (manage cr hub) {} qs = some w) (hs : manage cr hub w q = some w') :
    (∀ k, configGet k w'.state ≠ configGet k w.state → Authorizes cr chain w q.raw k) ∧
      (w'.accepted.map fun x => x.2.1).Nodup := by
  obtain ⟨hbefore, hlast⟩ := Runs.guarded_append.mp hg
  have hinit : Settings.Inv chain {} :=
    { keyed := nofun
      memory := holds_of_empty rfl
      last := nofun
      own := nofun
      once := List.nodup_nil }
  have hinv : w.Inv chain :=
    Runs.run_induct_of_guarded (fun _ _ _ h hg hs => (manage_inv h hk hempty hg hs).1) hinit
      hbefore hrun
  obtain ⟨hinv', hauth⟩ := manage_inv hinv hk hempty (hlast w hrun).1 hs
  exact ⟨hauth, hinv'.once⟩

namespace Sample
open Arkeo.Sample

/-- The client has two contracts with the provider. -/
def clientele (k : ℕ) : Option Contract :=
  if k = 2 then some onChain else if k = 3 then some { onChain with id := 3 } else none

/-- The hub knows both. -/
def informed : Hub := fun _ k =>
  if k = 2 then some answer else if k = 3 then some { answer with id := "3" } else none

theorem informed_knows : Knows clientele informed := by
  intro n k r hr
  unfold informed at hr
  unfold clientele
  split at hr
  · rename_i hk
    cases hr
    refine .inr ⟨?_, onChain, if_pos hk, rfl⟩
    rw [hk]
    decide +kernel
  · rename_i hk
    split at hr
    · rename_i hk'
      cases hr
      refine .inr ⟨?_, { onChain with id := 3 }, ?_, rfl⟩
      · rw [hk']
        decide +kernel
      · rw [if_neg hk, if_pos hk']
    · cases hr

/-- The client's credentials for contract 2, sent to the settings of a contract. -/
def whitelist (id : String) : SettingsRequest where
  id := id
  raw := clientHeader
  method := .post (some ["10.0.0.1"])

end Sample

/-- The client changes the settings of its contract. -/
theorem own_settings_changed : ∃ w, manage Sample.crypto Sample.informed {} (Sample.whitelist "2") =
      some w ∧ configGet 2 w.state ≠ configGet 2 {} ∧
    Authorizes Sample.crypto Sample.clientele {} Sample.clientHeader 2 := by
  have hacc : (accepts Sample.crypto Sample.informed (Sample.whitelist "2") {}).map
      (fun x => (x.1, x.2.contractId)) = some (2, 2) := by
    rw [accepts, show (Sample.whitelist "2").raw = Sample.clientHeader from rfl,
      Sample.client_contractAuth]
    decide +kernel
  have hw : (manage Sample.crypto Sample.informed {} (Sample.whitelist "2")).map
      (fun w => (configGet 2 w.state).whitelistIPAddresses) = some ["10.0.0.1"] := by decide +kernel
  obtain ⟨w, hs, hips⟩ := Option.map_eq_some_iff.mp hw
  have hne : configGet 2 w.state ≠ configGet 2 {} := by
    intro he
    rw [he] at hips
    exact absurd hips (by decide)
  have hguard : NamesItsOwn Sample.crypto Sample.informed {} (Sample.whitelist "2") := by
    intro id auth ha
    rw [ha] at hacc
    simp only [Option.map_some, Option.some.injEq, Prod.mk.injEq] at hacc
    rw [hacc.1, hacc.2]
  have hguarded : Runs.Guarded (manage Sample.crypto Sample.informed)
      (NamesItsOwn Sample.crypto Sample.informed) {} ([] ++ [Sample.whitelist "2"]) :=
    ⟨hguard, fun _ _ => trivial⟩
  have hauth := settings_authenticated Sample.informed_knows Sample.crypto_lawful.empty hguarded
    rfl hs
  exact ⟨w, hs, hne, hauth.1 2 hne⟩

/-- **One contract's credentials change another's settings.**  The client's credentials
for contract 2 are accepted for contract 3, and then for contract 2. -/
theorem settings_changed_by_foreign_credentials : Ideal Sample.crypto ∧
    Knows Sample.clientele Sample.informed ∧ ∃ w w',
    manage Sample.crypto Sample.informed {} (Sample.whitelist "3") = some w ∧
    manage Sample.crypto Sample.informed w (Sample.whitelist "2") = some w' ∧
    configGet 3 w.state ≠ configGet 3 {} ∧
    ¬Authorizes Sample.crypto Sample.clientele {} Sample.clientHeader 3 ∧
    ¬(w'.accepted.map fun x => x.2.1).Nodup := by
  have hrun : ((manage Sample.crypto Sample.informed {} (Sample.whitelist "3")).bind fun w =>
      (manage Sample.crypto Sample.informed w (Sample.whitelist "2")).map fun w' =>
        ((configGet 3 w.state).whitelistIPAddresses, w'.accepted.map fun x => x.2.1)) =
      some (["10.0.0.1"], [Sample.clientHeader, Sample.clientHeader]) := by decide +kernel
  obtain ⟨w, hw, hrun⟩ := Option.bind_eq_some_iff.mp hrun
  obtain ⟨w', hw', hrun⟩ := Option.map_eq_some_iff.mp hrun
  simp only [Prod.mk.injEq] at hrun
  obtain ⟨hips, hraws⟩ := hrun
  refine ⟨Sample.crypto_ideal, Sample.informed_knows, w, w', hw, hw', ?_, ?_, ?_⟩
  · intro he
    rw [he] at hips
    exact absurd hips (by decide)
  · rintro ⟨auth, c, pk, hparse, -, -, hid, -⟩
    obtain rfl := Option.some.inj (Sample.client_contractAuth.symm.trans hparse)
    cases hid
  · rw [hraws]
    simp

end Arkeo.Sentinel
