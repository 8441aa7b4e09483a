import Arkeo.BondSolvency

/-! # Bonds can be withdrawn

A bond is recorded under the id of its service, but a message that withdraws it
has to name the service, and the name is looked up in the registry.  A provider
can withdraw its bond exactly as long as some registered name stands for its
service (`withdrawable_iff`).

Registering and updating services never takes such a name away.  Removing one
does, and the removal asks for no bonded provider: `bond_locked`.  In a run in
which every removal leaves each bonded provider a name (`LeavesName`), and only
then, every bond can be withdrawn at any time.
-/
namespace Arkeo
open Exec

variable {cr : Crypto} {ctx : Context} {s s' : ChainState} {w w' : World} {a : Action} {u : Unit}

/-- The provider can take the amount out of its bond now: there is a message that
is accepted, pays the amount to its account and lowers its bond by it. -/
def Withdrawable (cr : Crypto) (w : World) (p : Provider) (amount : ℤ) : Prop :=
  ∃ creator name addr s', cr.getMyAddress p.pubKey = some addr ∧
    deliver cr w.ctx (.bondProvider
      { creator := creator, provider := p.pubKey, service := name, bond := -amount }) w.chain =
        some s' ∧
    s'.balance (.user addr) denom = w.chain.balance (.user addr) denom + amount ∧
    (s'.providerOf p.pubKey p.service).bond = p.bond - amount

/-- Some registered name stands for the service. -/
def ChainState.Named (s : ChainState) (service : ℕ) : Prop :=
  ∃ name, isBlank name = false ∧ s.serviceId? name = some service

/-- Every stored provider's service has a name. -/
def ChainState.AllNamed (s : ChainState) : Prop :=
  ∀ key p, s.providers.lookup key = some p → s.Named p.service

/-! ## One provider -/

theorem ChainState.providerOf_of_lookup {key : String × ℕ} {p : Provider}
    (h : s.StoredProviders cr) (hp : s.providers.lookup key = some p) :
    s.providerOf p.pubKey p.service = p := by
  unfold providerOf
  rw [← (h key p hp).key_eq, hp]
  rfl

/-- What a bond message leaves of a record. -/
theorem ChainState.bonded_providerOf (h : s.StoredProviders cr) (ctx : Context)
    (msg : MsgBondProvider) (service : ℕ) (addr : Bytes) (pubKey : PubKey) (service' : ℕ) :
    ((s.bonded ctx msg service addr).providerOf pubKey service').bond =
      (s.providerOf pubKey service').bond +
        if (toUpper pubKey, service') = (toUpper msg.provider, service) then msg.bond else 0 := by
  have hk := h.providerOf_key msg.provider service
  have hl : (s.bonded ctx msg service addr).providerOf pubKey service' =
      ((s.rebonded ctx (s.providerOf msg.provider service)
        ((s.providerOf msg.provider service).bond + msg.bond)).lookup
          (toUpper pubKey, service')).getD { pubKey := pubKey, service := service' } := rfl
  rw [hl]
  unfold rebonded
  rw [hk]
  by_cases hkey : (toUpper pubKey, service') = (toUpper msg.provider, service)
  · have hsame : (s.providerOf pubKey service').bond = (s.providerOf msg.provider service).bond := by
      unfold providerOf
      rw [hkey]
      cases s.providers.lookup (toUpper msg.provider, service) <;> rfl
    rw [if_pos hkey, hkey, hsame]
    split
    · rename_i h0
      rw [AList.lookup_erase, h0]
      rfl
    · rw [AList.lookup_insert]
      rfl
  · rw [if_neg hkey, add_zero]
    split
    · rw [AList.lookup_erase_ne hkey]
      rfl
    · rw [AList.lookup_insert_ne hkey]
      rfl

theorem MsgBondProvider.validateBasic_name {msg : MsgBondProvider}
    (h : msg.validateBasic cr s = .ok u s') : isBlank msg.service = false := by
  unfold validateBasic at h
  rw [ofOption_bind_ok] at h
  obtain ⟨_, -, h₁⟩ := h
  obtain ⟨_, _, hs, h₂⟩ := bind_ok.mp h₁
  obtain ⟨-, rfl⟩ := mustGetSigner_ok.mp hs
  rw [ofOption_bind_ok] at h₂
  obtain ⟨_, -, h₃⟩ := h₂
  simp only [failIf_bind_ok, failIf_ok] at h₃
  exact h₃.2.1

/-- Whoever can withdraw something has a name for its service. -/
theorem Withdrawable.named (hb : Bonded cr w) {key : String × ℕ} {p : Provider} {amount : ℤ}
    (hp : w.chain.providers.lookup key = some p) (h0 : 0 < amount)
    (h : Withdrawable cr w p amount) : w.chain.Named p.service := by
  obtain ⟨creator, name, addr, s', -, hd, -, hbond⟩ := h
  obtain ⟨hv, hh⟩ := deliver_some hd
  obtain ⟨service, addr', hbd, rfl⟩ := bondProvider_iff.mp hh
  rw [ChainState.bonded_providerOf hb.stored, ChainState.providerOf_of_lookup hb.stored hp] at hbond
  have hkey : (toUpper p.pubKey, p.service) = (toUpper p.pubKey, service) := by
    by_contra hne
    rw [if_neg hne] at hbond
    omega
  refine ⟨name, MsgBondProvider.validateBasic_name hv, ?_⟩
  rw [(Prod.mk.inj hkey).2]
  exact hbd.service_eq

/-- With a name for its service a provider can withdraw any part of its bond. -/
theorem withdrawable_of_named (hb : Bonded cr w) (hi : Inv cr w.ctx w.chain) {key : String × ℕ}
    {p : Provider} {amount : ℤ} (hp : w.chain.providers.lookup key = some p)
    (hn : w.chain.Named p.service) (h0 : 0 < amount) (hle : amount ≤ p.bond)
    (hfit : amount < 2 ^ 63) : Withdrawable cr w p amount := by
  obtain ⟨name, hblank, hsvc⟩ := hn
  have hst := hb.stored key p hp
  obtain ⟨creator, addr, hcreator, haddr⟩ := hst.signer
  have hof := ChainState.providerOf_of_lookup hb.stored hp
  -- the module holds the bond, and the bank holds no more than 256 bits
  have hsum : p.bond ≤ w.chain.bondSum := by
    have hval := AList.valueAt_le_sumOver (f := fun (_ : String × ℕ) (q : Provider) => q.bond)
      (fun k q hq => (hb.stored k q hq).positive.le) key
    rw [AList.valueAt_of_lookup hp] at hval
    exact hval
  have hback := hb.backed
  unfold ChainState.bondSurplus at hback
  have hcap := hi.balance_fits (.module .provider) denom
  let msg : MsgBondProvider :=
    { creator := creator, provider := p.pubKey, service := name, bond := -amount }
  have hbond : msg.bond = -amount := rfl
  have hpost : msg.posting addr = ⟨.module .provider, .user addr, msg.coin, .bond⟩ :=
    if_neg (by rw [hbond]; omega)
  have hbd : Bonding cr w.chain msg p.service addr := by
    refine ⟨hsvc, haddr, by rw [hbond]; omega, by rw [hbond]; omega, ?_, ?_, ?_, ?_⟩
    · show ((w.chain.providerOf p.pubKey p.service).bond + -amount).natAbs < 2 ^ 256
      rw [hof]
      omega
    · intro _
      show - -amount ≤ (w.chain.providerOf p.pubKey p.service).bond
      rw [hof]
      omega
    · rw [hpost]
      show ((-amount).natAbs : ℤ) ≤ w.chain.balance (.module .provider) denom
      omega
    · intro _
      show (w.chain.providerOf p.pubKey p.service).pubKey ≠ ""
      rw [hof]
      exact hst.named
  have hbasic : msg.validateBasic cr w.chain = .ok () w.chain := by
    refine ofOption_bind_ok.mpr ⟨p.pubKey, Crypto.newPubKey_of_address haddr, ?_⟩
    refine bind_ok.mpr ⟨addr, w.chain, mustGetSigner_ok.mpr ⟨hcreator, rfl⟩, ?_⟩
    refine ofOption_bind_ok.mpr ⟨addr, haddr, ?_⟩
    refine failIf_bind_ok.mpr ⟨by simp, failIf_bind_ok.mpr ⟨hblank, failIf_ok.mpr ⟨?_, rfl⟩⟩⟩
    rw [decide_eq_false_iff_not, hbond]
    omega
  refine ⟨creator, name, addr, w.chain.bonded w.ctx msg p.service addr, haddr, ?_, ?_, ?_⟩
  · exact committed_some.mpr ⟨(), bind_ok.mpr ⟨(), w.chain, hbasic,
      bondProvider_iff.mpr ⟨p.service, addr, hbd, rfl⟩⟩⟩
  · show (w.chain.sent _ _ msg.coin .bond).balance (.user addr) denom = _
    rw [ChainState.sent_balance, hpost]
    simp only [MsgBondProvider.coin, reduceCtorEq, false_and, if_false, and_self, if_true, hbond]
    omega
  · rw [ChainState.bonded_providerOf hb.stored, hof]
    show p.bond + (if (toUpper p.pubKey, p.service) = (toUpper p.pubKey, p.service) then -amount
      else 0) = _
    rw [if_pos rfl]
    omega

/-- **Every bond can be withdrawn if and only if every bonded service has a name.** -/
theorem withdrawable_iff (hb : Bonded cr w) (hi : Inv cr w.ctx w.chain) :
    w.chain.AllNamed ↔ ∀ key p, w.chain.providers.lookup key = some p →
      ∀ amount, 0 < amount → amount ≤ p.bond → amount < 2 ^ 63 → Withdrawable cr w p amount := by
  constructor
  · intro h key p hp amount h0 hle hfit
    exact withdrawable_of_named hb hi hp (h key p hp) h0 hle hfit
  · intro h key p hp
    have hpos := (hb.stored key p hp).positive
    exact Withdrawable.named hb hp one_pos (h key p hp 1 one_pos (by omega) (by decide))

/-! ## The registry in a run -/

/-- The runs of blanks. -/
def blanks : List (ℕ × ℕ) :=
  [(9, 13), (0x20, 0x20), (0x85, 0x85), (0xa0, 0xa0), (0x1680, 0x1680), (0x2000, 0x200a),
    (0x2028, 0x2029), (0x202f, 0x202f), (0x205f, 0x205f), (0x3000, 0x3000)]

theorem isSpace_iff (c : Char) :
    isSpace c = true ↔ ∃ r ∈ blanks, r.1 ≤ c.toNat ∧ c.toNat ≤ r.2 := by
  unfold isSpace blanks
  simp only [Bool.or_eq_true, Bool.and_eq_true, decide_eq_true_eq, List.exists_mem_cons_iff,
    List.not_mem_nil, false_and, exists_false, or_false]
  omega

/-- A small letter is no more of a blank than a capital: no letter is mapped into or out of a
run of blanks. -/
theorem isSpace_toLower (c : Char) : isSpace (LetterCase.toLower c) = isSpace c := by
  have hmiss : ∀ r ∈ blanks, (r.2 < 65 ∨ 122 < r.1) ∧
      (LetterCase.lowerRanges.all fun m => m.misses r.1 r.2) = true := by
    decide +kernel
  rw [Bool.eq_iff_iff, isSpace_iff, isSpace_iff, LetterCase.toNat_toLower]
  refine exists_congr fun r => and_congr_right fun hr => ?_
  exact LetterCase.lowerCode_mem_iff (hmiss r hr).1 (hmiss r hr).2

theorem isBlank_toLower (name : String) : isBlank (toLower name) = isBlank name := by
  unfold isBlank toLower
  rw [String.toList_ofList, List.all_map]
  congr 1
  funext c
  exact isSpace_toLower c

/-- **The guard.**  Where a service is removed, every provider bonded to it is left
another name of its service. -/
def LeavesName (cr : Crypto) (w : World) : Action → Prop
  | .msg (.removeService msg) =>
      ∀ p ∈ w.chain.providers.entries.map Sigma.snd,
        w.chain.serviceId? msg.name = some p.service →
        (deliver cr w.ctx (.removeService msg) w.chain).isSome →
          ∃ name ∈ w.chain.services.keys, toLower name ≠ toLower msg.name ∧
            isBlank name = false ∧ w.chain.serviceId? name = some p.service
  | _ => True

instance : ∀ w a, Decidable (LeavesName cr w a)
  | _, .msg (.removeService _) => inferInstanceAs (Decidable (∀ _ ∈ _, _ → _ → _))
  | _, .msg (.openContract _) => isTrue trivial
  | _, .msg (.bondProvider _) => isTrue trivial
  | _, .msg (.modProvider _) => isTrue trivial
  | _, .msg (.closeContract _) => isTrue trivial
  | _, .msg (.claimContractIncome _) => isTrue trivial
  | _, .msg (.registerService _) => isTrue trivial
  | _, .msg (.updateService _) => isTrue trivial
  | _, .send .. => isTrue trivial
  | _, .endBlock => isTrue trivial

theorem ChainState.serviceId?_of_lookup_eq {name : String}
    (h : s'.services.lookup (toLower name) = s.services.lookup (toLower name)) :
    s'.serviceId? name = s.serviceId? name := by
  unfold serviceId?
  rw [h]

theorem ChainState.Named.of_services {service : ℕ} (h : s.Named service)
    (hs : ∀ name, s.serviceId? name = some service → s'.serviceId? name = some service) :
    s'.Named service := by
  obtain ⟨name, hblank, hid⟩ := h
  exact ⟨name, hblank, hs name hid⟩

/-- A registration takes no name away. -/
theorem Named.register {msg : MsgRegisterService} {e : Service → Event} {service : ℕ}
    (hnew : s.services.lookup (toLower msg.name) = none) (h : s.Named service) :
    (s.withService ctx msg.record e).Named service := by
  refine h.of_services ?_
  intro name hid
  rw [← hid]
  refine ChainState.serviceId?_of_lookup_eq ?_
  have hne : toLower name ≠ toLower (toLower msg.name) := by
    rw [toLower_toLower]
    intro he
    unfold ChainState.serviceId? at hid
    rw [he, hnew] at hid
    cases hid
  exact AList.lookup_insert_ne hne

/-- An update leaves every name its id. -/
theorem Named.update {msg : MsgUpdateService} {e : Service → Event} {service : ℕ} {svc : Service}
    (hold : s.services.lookup (toLower msg.name) = some svc) (hid : svc.id = msg.id)
    (h : s.Named service) : (s.withService ctx msg.record e).Named service := by
  refine h.of_services ?_
  intro name hname
  by_cases he : toLower name = toLower msg.name
  · have hl : (s.withService ctx msg.record e).services.lookup (toLower name) =
        some msg.record := by
      rw [he, ← toLower_toLower msg.name]
      exact AList.lookup_insert s.services
    unfold ChainState.serviceId? at hname ⊢
    rw [hl]
    rw [he, hold] at hname
    simp only [Option.bind_some, hid] at hname
    exact hname
  · rw [← hname]
    refine ChainState.serviceId?_of_lookup_eq ?_
    have hne : toLower name ≠ toLower (toLower msg.name) := by
      rw [toLower_toLower]
      exact he
    exact AList.lookup_insert_ne hne

/-- What a removal leaves. -/
theorem serviceId?_withoutService (svc : Service) (name name' : String) :
    (s.withoutService ctx svc (toLower name)).serviceId? name' =
      if toLower name' = toLower name then none else s.serviceId? name' := by
  have hl : (s.withoutService ctx svc (toLower name)).services =
      s.services.erase (toLower name) := by
    show s.services.erase (toLower (toLower name)) = _
    rw [toLower_toLower]
  unfold ChainState.serviceId?
  rw [hl]
  split
  · rename_i he
    rw [he, AList.lookup_erase]
    rfl
  · rename_i he
    rw [AList.lookup_erase_ne he]

/-! Contracts leave the registry alone. -/

theorem ChainState.opened_services (signer : Bytes) (c : Contract) :
    (s.opened ctx signer c).services = s.services := by
  simp [opened, putUserIds, list, charged]

theorem ChainState.settle_services (c : Contract) (isFinal : Bool) :
    (s.settle cr ctx c isFinal).services = s.services := by
  cases isFinal <;> simp [settle, putUserIds, payout]

theorem ChainState.expireAll_services (hi : Inv cr ctx s) (ids : List ℕ) :
    (s.expireAll cr ctx ids).services = s.services :=
  ChainState.expireAll_induct (P := fun t => t.services = s.services)
    (fun _ _ _ _ _ h => (ChainState.settle_services ..).trans h) hi rfl ids

theorem ChainState.AllNamed.of_eq (h : s.AllNamed) (hp : s'.providers = s.providers)
    (hs : s'.services = s.services) : s'.AllNamed := by
  intro key p hl
  rw [hp] at hl
  refine (h key p hl).of_services ?_
  intro name hid
  rw [← hid]
  exact ChainState.serviceId?_of_lookup_eq (by rw [hs])

/-- A provider that bonds has named its service. -/
theorem AllNamed.bond {msg : MsgBondProvider} {service : ℕ} {addr : Bytes} (h : s.AllNamed)
    (hs : s.StoredProviders cr) (hs' : (s.bonded ctx msg service addr).StoredProviders cr)
    (hb : Bonding cr s msg service addr) (hblank : isBlank msg.service = false) :
    (s.bonded ctx msg service addr).AllNamed := by
  have hsame : ∀ name, (s.bonded ctx msg service addr).serviceId? name = s.serviceId? name := by
    intro name
    refine ChainState.serviceId?_of_lookup_eq ?_
    show (s.sent _ _ msg.coin .bond).services.lookup _ = _
    rw [ChainState.sent_services]
  intro key p hp
  by_cases hkey : key = (toUpper msg.provider, service)
  · have hserv : p.service = service := by
      have := (hs' key p hp).key_eq
      rw [hkey] at this
      exact (Prod.mk.inj this).2.symm
    exact ⟨msg.service, hblank, by rw [hsame, hserv]; exact hb.service_eq⟩
  · have hold : s.providers.lookup key = some p := by
      have hk := hs.providerOf_key msg.provider service
      change (s.rebonded ctx (s.providerOf msg.provider service) _).lookup key = some p at hp
      unfold ChainState.rebonded at hp
      rw [hk] at hp
      split at hp
      · rw [AList.lookup_erase_ne hkey] at hp
        exact hp
      · rw [AList.lookup_insert_ne hkey] at hp
        exact hp
    refine (h key p hold).of_services ?_
    intro name hid
    rw [hsame]
    exact hid

theorem AllNamed.settings {msg : MsgModProvider} (h : s.AllNamed) (hs : s.StoredProviders cr)
    (hh : modProvider cr ctx msg s = .ok u s') : s'.AllNamed := by
  obtain ⟨service, p, p', hl, -, hsvc, -, hps, -, -, hserv⟩ := modProvider_keeps hh
  have hst := hs _ p hl
  have hpos := hst.positive
  rw [if_neg (by omega), ← hst.key_eq] at hps
  intro key q hq
  have hnamed : s.Named q.service := by
    rw [hps] at hq
    by_cases hk : key = (toUpper msg.provider, service)
    · rw [hk, AList.lookup_insert] at hq
      obtain rfl := Option.some.inj hq
      rw [hsvc]
      exact h _ p hl
    · rw [AList.lookup_insert_ne hk] at hq
      exact h key q hq
  refine hnamed.of_services ?_
  intro name hid
  rw [← hid]
  exact ChainState.serviceId?_of_lookup_eq (by rw [hserv])

/-- A removal keeps every provider a name if and only if it meets the guard. -/
theorem AllNamed.remove {msg : MsgRemoveService} {svc : Service} (h : w.chain.AllNamed)
    (hacc : (deliver cr w.ctx (.removeService msg) w.chain).isSome) :
    LeavesName cr w (.msg (.removeService msg)) ↔
      (w.chain.withoutService w.ctx svc (toLower msg.name)).AllNamed := by
  have hid : ∀ name, (w.chain.withoutService w.ctx svc (toLower msg.name)).serviceId? name =
      if toLower name = toLower msg.name then none else w.chain.serviceId? name :=
    serviceId?_withoutService svc msg.name
  constructor
  · intro hguard key p hp
    have hp : w.chain.providers.lookup key = some p := hp
    obtain ⟨name, hblank, hname⟩ := h key p hp
    by_cases he : toLower name = toLower msg.name
    · -- the name goes; the guard has another one
      have hgone : w.chain.serviceId? msg.name = some p.service := by
        unfold ChainState.serviceId? at hname ⊢
        rw [← he]
        exact hname
      obtain ⟨name', -, hne, hblank', hname'⟩ := hguard p
        (List.mem_map.mpr ⟨⟨key, p⟩, AList.mem_entries.mpr hp, rfl⟩) hgone hacc
      exact ⟨name', hblank', by rw [hid, if_neg hne]; exact hname'⟩
    · exact ⟨name, hblank, by rw [hid, if_neg he]; exact hname⟩
  · intro hall p hmem _ _
    obtain ⟨⟨key, q⟩, hq, rfl⟩ := List.mem_map.mp hmem
    obtain ⟨name, hblank, hname⟩ := hall key q (AList.mem_entries.mp hq)
    rw [hid] at hname
    have hne : toLower name ≠ toLower msg.name := by
      intro he
      rw [if_pos he] at hname
      cases hname
    rw [if_neg hne] at hname
    obtain ⟨rec, hrec, -⟩ := Option.bind_eq_some_iff.mp hname
    refine ⟨toLower name, AList.mem_keys.mp (AList.lookup_isSome.mp (by rw [hrec]; rfl)), ?_, ?_, ?_⟩
    · rw [toLower_toLower]
      exact hne
    · rw [isBlank_toLower]
      exact hblank
    · unfold ChainState.serviceId? at hname ⊢
      rw [toLower_toLower]
      exact hname

/-- **One step** keeps every provider a name if and only if it meets the guard. -/
theorem step_allNamed (hi : Inv cr w.ctx w.chain) (hb : Bonded cr w) (h : w.chain.AllNamed)
    (hstep : step cr w a = some w') : LeavesName cr w a ↔ w'.chain.AllNamed := by
  have hb' := (hb.step hi hstep).1
  cases step_outcome hi hstep with
  | rejected m =>
    refine iff_of_true ?_ h
    cases m with
    | removeService msg =>
      intro p _ _ hacc
      obtain ⟨s, hs⟩ := Option.isSome_iff_exists.mp hacc
      simp only [step, hs] at hstep
      have hlen := congrArg (fun v : World => v.accepted.length) (Option.some.inj hstep)
      simp at hlen
    | _ => trivial
  | unsent src dst coin => exact iff_of_true trivial h
  | provider m s' hdel hm hq hd =>
    obtain ⟨hv, hh⟩ := deliver_some hdel
    cases m with
    | bondProvider msg =>
      obtain ⟨service, addr, hbd, rfl⟩ := bondProvider_iff.mp hh
      exact iff_of_true trivial
        (AllNamed.bond h hb.stored hb'.stored hbd (MsgBondProvider.validateBasic_name hv))
    | modProvider msg => exact iff_of_true trivial (AllNamed.settings h hb.stored hh)
    | registerService msg =>
      obtain ⟨hnew, -, rfl⟩ := registerService_ok hh
      exact iff_of_true trivial fun key p hp => Named.register hnew (h key p hp)
    | updateService msg =>
      obtain ⟨svc, hold, hid, rfl⟩ := updateService_ok hh
      exact iff_of_true trivial fun key p hp => Named.update hold hid (h key p hp)
    | removeService msg =>
      obtain ⟨svc, -, rfl⟩ := removeService_ok hh
      exact AllNamed.remove h (by rw [hdel]; rfl)
    | openContract msg => cases hm
    | closeContract msg => cases hm
    | claimContractIncome msg => cases hm
  | opened msg signer service c hsvc hv hc ho =>
    have hf : BondFrame w.chain (w.chain.opened w.ctx signer c) := .opened signer c
    exact iff_of_true trivial (h.of_eq hf.providers (ChainState.opened_services signer c))
  | closed msg c t hd hc hid hopen hby hs ht =>
    have hrel : (w.chain.relisted w.ctx c).services = w.chain.services := by
      unfold ChainState.relisted
      split <;> rfl
    have hf : BondFrame w.chain t := by
      rw [ht]
      exact (BondFrame.relisted w.ctx c).trans (.settle cr w.ctx c c.isSubscription)
    have hserv : t.services = w.chain.services := by
      rw [ht, ChainState.settle_services, hrel]
    exact iff_of_true trivial (h.of_eq hf.providers hserv)
  | claimed msg c hc hid hn hset hf =>
    exact iff_of_true trivial
      (h.of_eq (ChainState.settle_providers ..) (ChainState.settle_services ..))
  | sent src dst coin h0 hle =>
    exact iff_of_true trivial (h.of_eq (ChainState.sent_providers ..) (ChainState.sent_services ..))
  | ended ctx' hctx =>
    have hf := BondFrame.expireAll hi (w.chain.listedAt w.ctx.blockHeight)
    exact iff_of_true trivial (h.of_eq hf.providers (ChainState.expireAll_services hi _))

/-- **Bonds can be withdrawn.**  In a run, every stored provider can withdraw any
part of its bond in every state passed if and only if every removal of a service
leaves each provider bonded to it a name. -/
theorem bonds_withdrawable_iff (hg : Genesis w) {actions : List Action} :
    Runs.Guarded (step cr) (LeavesName cr) w actions ↔
      ∀ taken rest w', actions = taken ++ rest → Runs.run (step cr) w taken = some w' →
        ∀ key p, w'.chain.providers.lookup key = some p →
          ∀ amount, 0 < amount → amount ≤ p.bond → amount < 2 ^ 63 →
            Withdrawable cr w' p amount := by
  have hempty : w.chain.AllNamed := by
    intro key p hp
    rw [hg.providers] at hp
    cases hp
  have hnone : ∀ v b, step cr v b = none → LeavesName cr v b := by
    intro v b hb
    rw [step_eq_none hb]
    trivial
  have hiff : Runs.Guarded (step cr) (LeavesName cr) w actions ↔
      ∀ taken rest w', actions = taken ++ rest → Runs.run (step cr) w taken = some w' →
        w'.chain.AllNamed :=
    Runs.guarded_iff_forall (I := fun v => Inv cr v.ctx v.chain ∧ Bonded cr v)
      (P := fun v => v.chain.AllNamed)
      (fun _ _ _ hv hs => ⟨(step_outcome hv.1 hs).inv hv.1, (hv.2.step hv.1 hs).1⟩) hnone
      (fun _ _ _ hv hall hs => step_allNamed hv.1 hv.2 hall hs) ⟨hg.inv, hg.bonded⟩ hempty
  rw [hiff]
  constructor
  · intro h taken rest w' hl hrun
    exact (withdrawable_iff (reachable_bonded hg hrun).1 (reachable_inv hg hrun)).mp
      (h taken rest w' hl hrun)
  · intro h taken rest w' hl hrun
    exact (withdrawable_iff (reachable_bonded hg hrun).1 (reachable_inv hg hrun)).mpr
      (h taken rest w' hl hrun)

namespace Sample

/-- The provider bonds, and governance removes the only service. -/
def orphaned : List Action :=
  [.msg (.bondProvider
      { creator := provider.account, provider := provider.pubKey, service := service
        bond := 100000000 }),
   .msg (.removeService { creator := genesis.ctx.authority, name := service })]

/-- The provider bonds, and another service comes and goes. -/
def retired : List Action :=
  [.msg (.bondProvider
      { creator := provider.account, provider := provider.pubKey, service := service
        bond := 100000000 }),
   .msg (.registerService
      { creator := genesis.ctx.authority, id := 11, name := "trial", description := ""
        serviceType := "" }),
   .msg (.removeService { creator := genesis.ctx.authority, name := "Trial" })]

/-- The sample codecs, which also know the account of governance. -/
def governed : Crypto :=
  { crypto with
    accAddressFromBech32 := fun account =>
      if account = genesis.ctx.authority then
        some [123, 95, 226, 43, 84, 70, 247, 198, 46, 162, 123, 139, 215, 28, 239, 148, 224, 63, 61,
          242]
      else crypto.accAddressFromBech32 account }

end Sample

/-- A provider bonds, its service is removed, and it can withdraw nothing. -/
theorem bond_locked : ∃ w key p,
    Runs.run (step Sample.governed) Sample.genesis Sample.orphaned = some w ∧
    w.chain.providers.lookup key = some p ∧ p.bond = 100000000 ∧
    ∀ amount, 0 < amount → ¬Withdrawable Sample.governed w p amount := by
  have h : ((Runs.run (step Sample.governed) Sample.genesis Sample.orphaned).bind fun w =>
      w.chain.providers.entries.head?.map fun e => (e.2.bond, w.chain.services.entries.isEmpty)) =
      some (100000000, true) := by decide +kernel
  obtain ⟨w, hw, h₁⟩ := Option.bind_eq_some_iff.mp h
  obtain ⟨⟨key, p⟩, he, h₂⟩ := Option.map_eq_some_iff.mp h₁
  obtain ⟨hbond, hempty⟩ := Prod.mk.inj h₂
  have hp : w.chain.providers.lookup key = some p :=
    AList.mem_entries.mp (List.mem_of_mem_head? he)
  refine ⟨w, key, p, hw, hp, hbond, ?_⟩
  intro amount h0 hwith
  obtain ⟨name, -, hid⟩ := Withdrawable.named (reachable_bonded Sample.genesis_ok hw).1 hp h0 hwith
  -- no name is registered
  have hnone : w.chain.services = ∅ := AList.ext (List.isEmpty_iff.mp hempty)
  unfold ChainState.serviceId? at hid
  rw [hnone] at hid
  cases hid

/-- A service that nobody is bonded to may go: the provider can withdraw its whole
bond after it. -/
theorem bonds_withdrawable_after_removal : ∃ w key p,
    Runs.run (step Sample.governed) Sample.genesis Sample.retired = some w ∧
    w.chain.providers.lookup key = some p ∧ Withdrawable Sample.governed w p 100000000 := by
  have h : Runs.Guarded (step Sample.governed) (LeavesName Sample.governed) Sample.genesis
        Sample.retired ∧
      ((Runs.run (step Sample.governed) Sample.genesis Sample.retired).bind fun w =>
        w.chain.providers.entries.head?.map fun e => (e.2.bond, w.chain.services.keys)) =
      some (100000000, [Sample.service]) := by decide +kernel
  obtain ⟨hguard, h₁⟩ := h
  obtain ⟨w, hw, h₂⟩ := Option.bind_eq_some_iff.mp h₁
  obtain ⟨⟨key, p⟩, he, h₃⟩ := Option.map_eq_some_iff.mp h₂
  have hbond : p.bond = 100000000 := (Prod.mk.inj h₃).1
  have hp : w.chain.providers.lookup key = some p :=
    AList.mem_entries.mp (List.mem_of_mem_head? he)
  refine ⟨w, key, p, hw, hp, ?_⟩
  exact (bonds_withdrawable_iff Sample.genesis_ok).mp hguard Sample.retired [] w
    (List.append_nil _).symm hw key p hp 100000000 (by decide) hbond.ge (by decide)

end Arkeo
