import Arkeo.Reachable

/-! # The bonds of the providers

A bond is paid into the provider module and recorded under the key of the
provider and the id of the service.  `Bonding` says when a bond message is
accepted and `ChainState.bonded` what it does (`bondProvider_iff`); new settings
of a provider are `ChainState.modified` (`modProvider_modified`) and leave its bond
alone.
-/
namespace Arkeo
open Exec

variable {cr : Crypto} {ctx : Context} {s s' : ChainState} {w w' : World} {a : Action} {u : Unit}

/-! ## A bond message -/

/-- The record of a provider, or the empty one. -/
def ChainState.providerOf (s : ChainState) (pubKey : PubKey) (service : ℕ) : Provider :=
  (s.providers.lookup (toUpper pubKey, service)).getD { pubKey := pubKey, service := service }

/-- The coin a bond message moves. -/
def MsgBondProvider.coin (msg : MsgBondProvider) : Coin := ⟨denom, msg.bond.natAbs⟩

/-- The transfer of a bond message. -/
def MsgBondProvider.posting (msg : MsgBondProvider) (addr : Bytes) : Posting :=
  if 0 < msg.bond then ⟨.user addr, .module .provider, msg.coin, .bond⟩
  else ⟨.module .provider, .user addr, msg.coin, .bond⟩

/-- When a bond message is accepted: the service is registered, the amount is there
to be paid in or out, and it is an `int64`. -/
structure Bonding (cr : Crypto) (s : ChainState) (msg : MsgBondProvider) (service : ℕ)
    (addr : Bytes) : Prop where
  service_eq : s.serviceId? msg.service = some service
  addr_eq : cr.getMyAddress msg.provider = some addr
  ne_zero : msg.bond ≠ 0
  fits : msg.bond.natAbs < 2 ^ 63
  sum_fits : ((s.providerOf msg.provider service).bond + msg.bond).natAbs < 2 ^ 256
  covered : msg.bond < 0 → -msg.bond ≤ (s.providerOf msg.provider service).bond
  funds : (msg.bond.natAbs : ℤ) ≤ s.balance (msg.posting addr).src denom
  named : (s.providerOf msg.provider service).bond + msg.bond ≠ 0 →
    (s.providerOf msg.provider service).pubKey ≠ ""

/-- The providers after a bond message. -/
def ChainState.rebonded (s : ChainState) (ctx : Context) (p : Provider) (bond : ℤ) :
    AList (fun _ : String × ℕ => Provider) :=
  if bond = 0 then s.providers.erase (toUpper p.pubKey, p.service)
  else s.providers.insert (toUpper p.pubKey, p.service)
    { p with bond := bond, lastUpdate := ctx.blockHeight }

/-- The store after a bond message. -/
def ChainState.bonded (s : ChainState) (ctx : Context) (msg : MsgBondProvider) (service : ℕ)
    (addr : Bytes) : ChainState :=
  let p := s.providerOf msg.provider service
  { s.sent (msg.posting addr).src (msg.posting addr).dst msg.coin .bond with
    providers := s.rebonded ctx p (p.bond + msg.bond)
    events := s.events ++
      [(ctx.blockHeight, .bondProvider msg.provider msg.service msg.bond (p.bond + msg.bond))] }

/-- The amount of an `int64` bond survives the conversion. -/
theorem toInt64_natAbs_ok {x : ℤ} {n : Int64} :
    toInt64 (x.natAbs : ℤ) s = .ok n s' ↔
      (x.natAbs < 2 ^ 63 ∧ n = Int64.ofInt x.natAbs) ∧ s = s' := by
  rw [toInt64_ok]
  constructor
  · rintro ⟨⟨-, hlt⟩, rfl, rfl⟩
    exact ⟨⟨by omega, rfl⟩, rfl⟩
  · rintro ⟨⟨hlt, rfl⟩, rfl⟩
    exact ⟨⟨by omega, by omega⟩, rfl, rfl⟩

theorem moveBond_iff {p : Provider} {addr : Bytes} {msg : MsgBondProvider} :
    moveBond p addr msg.bond msg.coin s = .ok u s' ↔
      (msg.bond ≠ 0 ∧ (msg.bond < 0 → -msg.bond ≤ p.bond) ∧
        (msg.bond.natAbs : ℤ) ≤ s.balance (msg.posting addr).src denom) ∧
      s.sent (msg.posting addr).src (msg.posting addr).dst msg.coin .bond = s' := by
  unfold moveBond MsgBondProvider.posting
  rcases lt_trichotomy msg.bond 0 with h | h | h
  · rw [if_neg (by omega), if_pos h, failIf_bind_ok, sendFromModuleToAccount_ok, if_neg (by omega)]
    have hcov : decide (p.bond < msg.coin.amount) = false ↔ -msg.bond ≤ p.bond := by
      rw [decide_eq_false_iff_not, not_lt]
      show (msg.bond.natAbs : ℤ) ≤ p.bond ↔ _
      omega
    rw [hcov]
    constructor
    · rintro ⟨hle, hb, hs⟩
      exact ⟨⟨by omega, fun _ => hle, hb⟩, hs⟩
    · rintro ⟨⟨-, hle, hb⟩, hs⟩
      exact ⟨hle h, hb, hs⟩
  · rw [if_neg (by omega), if_neg (by omega)]
    constructor
    · intro hbad
      cases hbad
    · rintro ⟨⟨hne, -⟩, -⟩
      exact absurd h hne
  · rw [if_pos h, sendFromAccountToModule_ok, if_pos h]
    constructor
    · rintro ⟨hb, hs⟩
      exact ⟨⟨by omega, fun hneg => by omega, hb⟩, hs⟩
    · rintro ⟨⟨-, -, hb⟩, hs⟩
      exact ⟨hb, hs⟩

theorem writeBond_iff {p : Provider} {bond : ℤ} :
    writeBond ctx p bond s = .ok u s' ↔
      (bond ≠ 0 → p.pubKey ≠ "") ∧ { s with providers := s.rebonded ctx p bond } = s' := by
  unfold writeBond ChainState.rebonded
  by_cases h : bond = 0
  · rw [if_pos h, if_pos h, removeProvider, writing_ok]
    simp [h]
  · rw [if_neg h, if_neg h, setProvider, failIf_bind_ok, writing_ok, decide_eq_false_iff_not]
    simp [h]

/-- The key of a message that has an address is taken as it is. -/
theorem Crypto.newPubKey_of_address {key : PubKey} {addr : Bytes}
    (h : cr.getMyAddress key = some addr) : cr.newPubKey key = some key := by
  obtain ⟨pk, hpk, -⟩ := Option.map_eq_some_iff.mp h
  unfold newPubKey
  split
  · rename_i he
    rw [he]
  · rw [hpk]
    rfl

/-- **A bond message, inverted and built.** -/
theorem bondProvider_iff {msg : MsgBondProvider} : bondProvider cr ctx msg s = .ok u s' ↔
    ∃ service addr, Bonding cr s msg service addr ∧ s.bonded ctx msg service addr = s' := by
  unfold bondProvider bondProviderValidate bondProviderHandle
  rw [failIf_bind_ok]
  constructor
  · rintro ⟨-, h⟩
    obtain ⟨⟨service, svc⟩, _, hx, h₁⟩ := bind_ok.mp h
    obtain ⟨⟨hsvc, -⟩, rfl⟩ := resolveServiceEnum_ok.mp hx
    rw [ofOption_bind_ok] at h₁
    obtain ⟨pk, hpk, h₂⟩ := h₁
    obtain ⟨rfl, -⟩ := Crypto.newPubKey_some hpk
    obtain ⟨p, _, hp, h₃⟩ := bind_ok.mp h₂
    obtain ⟨rfl, rfl⟩ := reading_ok.mp hp
    rw [ofOption_bind_ok] at h₃
    obtain ⟨addr, haddr, h₄⟩ := h₃
    obtain ⟨n, _, hn, h₅⟩ := bind_ok.mp h₄
    obtain ⟨⟨hfits, rfl⟩, rfl⟩ := toInt64_natAbs_ok.mp hn
    rw [Int64.toInt_ofInt_of_le (by omega) (by omega)] at h₅
    obtain ⟨_, _, hm, h₆⟩ := bind_ok.mp h₅
    obtain ⟨⟨hne, hcov, hfunds⟩, rfl⟩ := moveBond_iff.mp hm
    obtain ⟨bond, _, hc, h₇⟩ := bind_ok.mp h₆
    obtain ⟨hsum, rfl, rfl⟩ := checked_ok.mp hc
    obtain ⟨_, _, hw, h₈⟩ := bind_ok.mp h₇
    obtain ⟨hname, rfl⟩ := writeBond_iff.mp hw
    unfold emitBondProviderEvent at h₈
    rw [ofOption_bind_ok] at h₈
    obtain ⟨pk, hpk', h₉⟩ := h₈
    rw [hpk] at hpk'
    obtain rfl := Option.some.inj hpk'
    obtain rfl := emit_ok.mp h₉
    refine ⟨service, addr, ⟨hsvc, haddr, hne, hfits, hsum, hcov, hfunds, hname⟩, ?_⟩
    simp only [ChainState.bonded, ChainState.rebonded, ChainState.sent_providers,
      ChainState.sent_events]
    rfl
  · rintro ⟨service, addr, hb, rfl⟩
    obtain ⟨svc, hsvc, -⟩ := Option.bind_eq_some_iff.mp hb.service_eq
    have hpk := Crypto.newPubKey_of_address hb.addr_eq
    refine ⟨rfl, bind_ok.mpr ⟨(service, svc), s,
      resolveServiceEnum_ok.mpr ⟨⟨hb.service_eq, hsvc⟩, rfl⟩, ?_⟩⟩
    refine ofOption_bind_ok.mpr ⟨msg.provider, hpk, ?_⟩
    refine bind_ok.mpr ⟨s.providerOf msg.provider service, s, reading_ok.mpr ⟨rfl, rfl⟩, ?_⟩
    refine ofOption_bind_ok.mpr ⟨addr, hb.addr_eq, ?_⟩
    refine bind_ok.mpr ⟨_, s, toInt64_natAbs_ok.mpr ⟨⟨hb.fits, rfl⟩, rfl⟩, ?_⟩
    have hfits := hb.fits
    rw [Int64.toInt_ofInt_of_le (by omega) (by omega)]
    refine bind_ok.mpr ⟨(), _, moveBond_iff.mpr ⟨⟨hb.ne_zero, hb.covered, hb.funds⟩, rfl⟩, ?_⟩
    refine bind_ok.mpr ⟨_, _, checked_ok.mpr ⟨hb.sum_fits, rfl, rfl⟩, ?_⟩
    refine bind_ok.mpr ⟨(), _, writeBond_iff.mpr ⟨hb.named, rfl⟩, ?_⟩
    refine ofOption_bind_ok.mpr ⟨msg.provider, hpk, emit_ok.mpr ?_⟩
    simp only [ChainState.bonded, ChainState.rebonded, ChainState.sent_providers,
      ChainState.sent_events]

/-! ## New settings -/

/-- The record of a provider with the settings of a message. -/
def MsgModProvider.settings (msg : MsgModProvider) (ctx : Context) (p : Provider) : Provider :=
  { p with
    metadataUri := if msg.metadataUri ≠ "" then msg.metadataUri else p.metadataUri
    metadataNonce := max p.metadataNonce msg.metadataNonce
    status := msg.status
    minContractDuration := msg.minContractDuration
    maxContractDuration := msg.maxContractDuration
    subscriptionRate := msg.subscriptionRate
    payAsYouGoRate := msg.payAsYouGoRate
    settlementDuration := msg.settlementDuration
    lastUpdate := ctx.blockHeight }

/-- The event of new settings. -/
def modEvent (creator : Bytes) (p : Provider) : EventModProvider where
  creator := creator
  provider := p.pubKey
  service := serviceString p.service
  metadataUri := p.metadataUri
  metadataNonce := p.metadataNonce
  status := p.status
  minContractDuration := p.minContractDuration
  maxContractDuration := p.maxContractDuration
  subscriptionRate := p.subscriptionRate
  payAsYouGoRate := p.payAsYouGoRate
  bond := p.bond
  settlementDuration := p.settlementDuration

/-- The store after new settings of a provider. -/
def ChainState.modified (s : ChainState) (ctx : Context) (creator : Bytes) (p : Provider) :
    ChainState :=
  { s with
    providers := s.providers.insert (toUpper p.pubKey, p.service) p
    events := s.events ++ [(ctx.blockHeight, .modProvider (modEvent creator p))] }

/-- **New settings, inverted.** -/
theorem modProvider_effect {msg : MsgModProvider} (h : modProvider cr ctx msg s = .ok u s') :
    ∃ service p creator, s.serviceId? msg.service = some service ∧
      s.providers.lookup (toUpper msg.provider, service) = some p ∧ p.bond ≠ 0 ∧
      cr.accAddressFromBech32 msg.creator = some creator ∧
      s' = s.modified ctx creator (msg.settings ctx p) := by
  obtain ⟨_, _, hv, h₁⟩ := bind_ok.mp h
  unfold modProviderValidate at hv
  simp only [failIf_bind_ok] at hv
  obtain ⟨-, -, -, hv₁⟩ := hv
  obtain ⟨⟨service, svc⟩, _, hx, hv₂⟩ := bind_ok.mp hv₁
  obtain ⟨⟨hsvc, -⟩, rfl⟩ := resolveServiceEnum_ok.mp hx
  obtain ⟨p, _, hget, hv₃⟩ := bind_ok.mp hv₂
  obtain ⟨hp, rfl⟩ := reading_ok.mp hget
  obtain ⟨hbond, rfl⟩ := failIf_ok.mp hv₃
  rw [decide_eq_false_iff_not] at hbond
  unfold modProviderHandle at h₁
  obtain ⟨⟨service', svc'⟩, _, hx, h₂⟩ := bind_ok.mp h₁
  obtain ⟨⟨hsvc', -⟩, rfl⟩ := resolveServiceEnum_ok.mp hx
  obtain rfl : service = service' := Option.some.inj (hsvc.symm.trans hsvc')
  obtain ⟨p', _, hget', h₃⟩ := bind_ok.mp h₂
  obtain ⟨hp', rfl⟩ := reading_ok.mp hget'
  obtain rfl : p = p' := hp.symm.trans hp'
  obtain ⟨_, _, hset, h₄⟩ := bind_ok.mp h₃
  unfold setProvider at hset
  rw [failIf_bind_ok, writing_ok] at hset
  obtain ⟨-, rfl⟩ := hset
  obtain ⟨creator, _, hs, h₅⟩ := bind_ok.mp h₄
  obtain ⟨hcreator, rfl⟩ := mustGetSigner_ok.mp hs
  rw [emitModProviderEvent, emit_ok] at h₅
  subst h₅
  -- the record has a bond, so it is not the empty one
  have hlook : s.providers.lookup (toUpper msg.provider, service) = some p := by
    cases hl : s.providers.lookup (toUpper msg.provider, service) with
    | none =>
      rw [hl, Option.getD_none] at hp
      rw [← hp] at hbond
      simp at hbond
    | some q =>
      rw [hl, Option.getD_some] at hp
      rw [hp]
  refine ⟨service, p, creator, hsvc, hlook, hbond, hcreator, ?_⟩
  simp only [if_neg hbond]
  rfl

theorem modProvider_modified {msg : MsgModProvider} (h : modProvider cr ctx msg s = .ok u s') :
    ∃ service p creator, s.serviceId? msg.service = some service ∧
      s.providers.lookup (toUpper msg.provider, service) = some p ∧ p.bond ≠ 0 ∧
      s' = s.modified ctx creator (msg.settings ctx p) := by
  obtain ⟨service, p, creator, hsvc, hp, hbond, -, hs⟩ := modProvider_effect h
  exact ⟨service, p, creator, hsvc, hp, hbond, hs⟩

/-- New settings of a provider leave its key, its service and its bond alone. -/
theorem modProvider_keeps {msg : MsgModProvider} (h : modProvider cr ctx msg s = .ok u s') :
    ∃ service p p', s.providers.lookup (toUpper msg.provider, service) = some p ∧
      p'.pubKey = p.pubKey ∧ p'.service = p.service ∧ p'.bond = p.bond ∧
      s'.providers = (if p.bond = 0 then s.providers.erase (toUpper p.pubKey, p.service)
        else s.providers.insert (toUpper p.pubKey, p.service) p') ∧
      s'.bank = s.bank ∧ s'.journal = s.journal ∧ s'.services = s.services := by
  obtain ⟨service, p, creator, -, hp, hbond, rfl⟩ := modProvider_modified h
  refine ⟨service, p, msg.settings ctx p, hp, rfl, rfl, rfl, ?_, rfl, rfl, rfl⟩
  rw [if_neg hbond]
  rfl

/-- An event of the registry. -/
def Event.isRegistry : Event → Bool
  | .registerService _ | .updateService _ | .removeService _ => true
  | _ => false

/-- **What a message about a provider or a service does**: a bond, new settings, or a
change of the registry. -/
theorem quiet_cases {m : Msg} (hm : m.isQuiet = true) (h : deliver cr ctx m s = some s') :
    (∃ msg service addr, m = .bondProvider msg ∧ Bonding cr s msg service addr ∧
      s' = s.bonded ctx msg service addr) ∨
    (∃ msg service p creator, m = .modProvider msg ∧ s.serviceId? msg.service = some service ∧
      s.providers.lookup (toUpper msg.provider, service) = some p ∧ p.bond ≠ 0 ∧
      s' = s.modified ctx creator (msg.settings ctx p)) ∨
    (∃ e : Event, e.isRegistry = true ∧ s'.providers = s.providers ∧
      s'.events = s.events ++ [(ctx.blockHeight, e)]) := by
  obtain ⟨-, hh⟩ := deliver_some h
  cases m with
  | bondProvider msg =>
    obtain ⟨service, addr, hb, rfl⟩ := bondProvider_iff.mp hh
    exact .inl ⟨msg, service, addr, rfl, hb, rfl⟩
  | modProvider msg =>
    obtain ⟨service, p, creator, hsvc, hp, hbond, rfl⟩ := modProvider_modified hh
    exact .inr (.inl ⟨msg, service, p, creator, rfl, hsvc, hp, hbond, rfl⟩)
  | registerService msg =>
    obtain ⟨-, -, rfl⟩ := registerService_ok hh
    exact .inr (.inr ⟨.registerService msg.record, rfl, rfl, rfl⟩)
  | updateService msg =>
    obtain ⟨_, -, -, rfl⟩ := updateService_ok hh
    exact .inr (.inr ⟨.updateService msg.record, rfl, rfl, rfl⟩)
  | removeService msg =>
    obtain ⟨_, -, rfl⟩ := removeService_ok hh
    exact .inr (.inr ⟨.removeService (toLower msg.name), rfl, rfl, rfl⟩)
  | openContract msg => cases hm
  | closeContract msg => cases hm
  | claimContractIncome msg => cases hm

/-! ## The bonds of a store -/

/-- The bonds of the records whose keys satisfy `Q`. -/
def ChainState.bondWhere (s : ChainState) (Q : String × ℕ → Bool) : ℤ :=
  s.providers.sumOver fun k p => if Q k then p.bond else 0

/-- What a key has bonded, for all services together. -/
def ChainState.bondOf (s : ChainState) (key : String) : ℤ := s.bondWhere fun k => k.1 = key

theorem ChainState.bondSum_eq (s : ChainState) : s.bondSum = s.bondWhere fun _ => true := by
  unfold bondSum bondWhere
  simp

/-- Records stand under their own keys, have a bond, and belong to an account that
can sign. -/
structure Provider.Stored (cr : Crypto) (key : String × ℕ) (p : Provider) : Prop where
  key_eq : key = (toUpper p.pubKey, p.service)
  positive : 0 < p.bond
  named : p.pubKey ≠ ""
  signer : ∃ creator addr, cr.accAddressFromBech32 creator = some addr ∧
    cr.getMyAddress p.pubKey = some addr

def ChainState.StoredProviders (cr : Crypto) (s : ChainState) : Prop :=
  ∀ key p, s.providers.lookup key = some p → p.Stored cr key

/-- The record a bond message reads stands under the key of the message. -/
theorem ChainState.StoredProviders.providerOf_key (h : s.StoredProviders cr) (pubKey : PubKey)
    (service : ℕ) : (toUpper (s.providerOf pubKey service).pubKey,
      (s.providerOf pubKey service).service) = (toUpper pubKey, service) := by
  unfold providerOf
  cases hl : s.providers.lookup (toUpper pubKey, service) with
  | none => rfl
  | some p => exact (h _ p hl).key_eq.symm

theorem ChainState.valueAt_providerOf (s : ChainState) (Q : String × ℕ → Bool) (pubKey : PubKey)
    (service : ℕ) :
    s.providers.valueAt (fun k p => if Q k then p.bond else 0) (toUpper pubKey, service) =
      if Q (toUpper pubKey, service) then (s.providerOf pubKey service).bond else 0 := by
  unfold providerOf AList.valueAt
  cases s.providers.lookup (toUpper pubKey, service) with
  | none => simp
  | some p => rfl

/-- A bond message changes the sum by its amount. -/
theorem ChainState.bondWhere_bonded (h : s.StoredProviders cr) (ctx : Context)
    (msg : MsgBondProvider) (service : ℕ) (addr : Bytes) (Q : String × ℕ → Bool) :
    (s.bonded ctx msg service addr).bondWhere Q =
      s.bondWhere Q + if Q (toUpper msg.provider, service) then msg.bond else 0 := by
  have hv := s.valueAt_providerOf Q msg.provider service
  have hk := h.providerOf_key msg.provider service
  show (s.rebonded ctx (s.providerOf msg.provider service) _).sumOver _ = _
  unfold rebonded bondWhere
  rw [hk]
  split
  · rw [AList.sumOver_erase, hv]
    split <;> omega
  · rw [AList.sumOver_insert, hv]
    simp only
    split <;> omega

/-- A record of the store after a bond message. -/
theorem ChainState.StoredProviders.bonded {msg : MsgBondProvider} {service : ℕ} {addr : Bytes}
    (h : s.StoredProviders cr) (hb : Bonding cr s msg service addr) {creator : String}
    (hc : cr.accAddressFromBech32 creator = some addr) (ctx : Context) :
    (s.bonded ctx msg service addr).StoredProviders cr := by
  intro key p hp
  have hk := h.providerOf_key msg.provider service
  change (s.rebonded ctx (s.providerOf msg.provider service) _).lookup key = some p at hp
  unfold rebonded at hp
  rw [hk] at hp
  by_cases h0 : (s.providerOf msg.provider service).bond + msg.bond = 0
  · rw [if_pos h0] at hp
    by_cases hkey : key = (toUpper msg.provider, service)
    · rw [hkey, AList.lookup_erase] at hp
      cases hp
    · rw [AList.lookup_erase_ne hkey] at hp
      exact h key p hp
  · rw [if_neg h0] at hp
    by_cases hkey : key = (toUpper msg.provider, service)
    · rw [hkey, AList.lookup_insert] at hp
      obtain rfl := Option.some.inj hp
      -- the old record, if there is one, had a positive bond and a signer
      have hold : 0 ≤ (s.providerOf msg.provider service).bond ∧
          ∃ creator addr, cr.accAddressFromBech32 creator = some addr ∧
            cr.getMyAddress (s.providerOf msg.provider service).pubKey = some addr := by
        unfold providerOf
        cases hl : s.providers.lookup (toUpper msg.provider, service) with
        | none => exact ⟨le_refl _, creator, addr, hc, hb.addr_eq⟩
        | some q => exact ⟨(h _ q hl).positive.le, (h _ q hl).signer⟩
      refine ⟨hkey.trans hk.symm, ?_, hb.named h0, hold.2⟩
      have hne := hb.ne_zero
      have hcov := hb.covered
      have hpos := hold.1
      show 0 < (s.providerOf msg.provider service).bond + msg.bond
      omega
    · rw [AList.lookup_insert_ne hkey] at hp
      exact h key p hp

end Arkeo
