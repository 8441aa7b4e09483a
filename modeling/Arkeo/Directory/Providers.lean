import Arkeo.Bonds
import Arkeo.Directory.Indexer
import Arkeo.Services

/-! # The providers of the directory

The rows of `providers` against the records of the chain.  On the chain a record is created by
a bond, removed when the bond is used up, and created afresh by a later bond.  The row of the
directory is created once and then updated, so that a bond after the removal of a record finds
the settings the removed record had.

A record without settings is one whose least duration is zero: settings have a positive one.

The settings reach the row by way of the decoder, which fails on a URI that begins as an array
and on a status without a name; the URI itself is not compared.
-/
namespace Arkeo.Directory
open Exec

variable {cr : Crypto} {b : Bech32 cr} {ctx : Context} {s s' : ChainState} {w w' : World}
  {a : Action} {db db' : Database} {ev : Int64 × Event} {p : Provider} {row : ProviderRow}
  {spell : String → String}

/-! ## Rows and records -/

/-- The settings that a row without any shows: offline, no durations, no rates. -/
structure ProviderRow.Blank (row : ProviderRow) : Prop where
  status : row.status.getD .offline = .offline
  minContractDuration : row.minContractDuration.getD (-1) = -1
  maxContractDuration : row.maxContractDuration.getD (-1) = -1
  subscriptionRates : row.subscriptionRates = []
  payAsYouGoRates : row.payAsYouGoRates = []

/-- A list of rates as it should be stored. -/
def ratesOf (coins : List Coin) : List (String × ℤ) := coins.map fun coin => (coin.denom, coin.amount)

/-- A record that was never modified since it was created. -/
def IsDefault (p : Provider) : Prop :=
  p.minContractDuration = 0 ∧ p.maxContractDuration = 0 ∧ p.status = .offline ∧
    p.subscriptionRate = [] ∧ p.payAsYouGoRate = []

/-- The row shows the record: its bond, and its settings or none. -/
structure Shows (row : ProviderRow) (p : Provider) : Prop where
  bond : row.bond = p.bond
  settings : (IsDefault p ∧ row.Blank) ∨
    (0 < p.minContractDuration.toInt ∧ row.status = some p.status ∧
      row.minContractDuration = some p.minContractDuration.toInt ∧
      row.maxContractDuration = some p.maxContractDuration.toInt ∧
      row.subscriptionRates = ratesOf p.subscriptionRate ∧
      row.payAsYouGoRates = ratesOf p.payAsYouGoRate)

/-- Settings for the names of a row. -/
def Event.modifies (names : String × String) : Event → Bool
  | .modProvider e => e.provider = names.1 && e.service = names.2
  | _ => false

/-- The directory's copy of the records. -/
structure Lists (spell : String → String) (db : Database) (s : ChainState) : Prop where
  records : ∀ key p, s.providers.lookup key = some p →
    key = (toUpper p.pubKey, p.service) ∧ p.pubKey = spell key.1
  uris : ∀ key p, s.providers.lookup key = some p → p.metadataUri.toList.head? ≠ some '['
  rows : ∀ key p, s.providers.lookup key = some p →
    ∃ row, db.providers.lookup (p.pubKey, serviceString p.service) = some row ∧ Shows row p
  spelled : ∀ names row, db.providers.lookup names = some row → names.1 = spell (toUpper names.1)
  blank : ∀ names row, db.providers.lookup names = some row →
    (∀ x ∈ s.events, Event.modifies names x.2 = false) → row.Blank
  lower : ∀ names row, db.providers.lookup names = some row →
    ∀ r ∈ row.subscriptionRates ++ row.payAsYouGoRates, toLower r.1 = r.1

/-! ## A bond in the directory -/

theorem mem_rateRows_lower {coins : List Coin} {r : String × ℤ} (hr : r ∈ rateRows coins) :
    toLower r.1 = r.1 := by
  obtain ⟨coin, -, rfl⟩ := List.mem_map.mp hr
  exact toLower_toLower _

/-- Rates that are read and written again stay as they are. -/
theorem rateRows_findRates {rates : List (String × ℤ)} {coins : List Coin}
    (hlow : ∀ r ∈ rates, toLower r.1 = r.1) (h : findRates rates = some coins) :
    rateRows coins = rates := by
  unfold findRates at h
  split at h
  · obtain rfl := Option.some.inj h
    rw [rateRows, List.map_map]
    refine (List.map_congr_left ?_).trans (List.map_id rates)
    intro r hr
    exact Prod.ext (hlow r hr) rfl
  · cases h

/-- The row that a later bond writes: the amount is new, the rest is as it was read. -/
structure Rebonds (row : ProviderRow) (bond : ℤ) (row' : ProviderRow) : Prop where
  bond : row'.bond = bond
  status : row'.status = some (row.status.getD .offline)
  minContractDuration : row'.minContractDuration = some (row.minContractDuration.getD (-1))
  maxContractDuration : row'.maxContractDuration = some (row.maxContractDuration.getD (-1))
  subscriptionRates : row'.subscriptionRates = row.subscriptionRates
  payAsYouGoRates : row'.payAsYouGoRates = row.payAsYouGoRates

theorem Rebonds.blank {row' : ProviderRow} {bond : ℤ} (h : Rebonds row bond row')
    (hb : row.Blank) : row'.Blank := by
  refine ⟨?_, ?_, ?_, ?_, ?_⟩
  · rw [h.status, Option.getD_some]
    exact hb.status
  · rw [h.minContractDuration, Option.getD_some]
    exact hb.minContractDuration
  · rw [h.maxContractDuration, Option.getD_some]
    exact hb.maxContractDuration
  · rw [h.subscriptionRates]
    exact hb.subscriptionRates
  · rw [h.payAsYouGoRates]
    exact hb.payAsYouGoRates

/-- A bond on a record that has a row. -/
theorem Rebonds.shows {row' : ProviderRow} {bond : ℤ} (h : Rebonds row bond row')
    (hs : Shows row p) (t : Int64) : Shows row' { p with bond := bond, lastUpdate := t } := by
  refine ⟨h.bond, ?_⟩
  rcases hs.settings with ⟨hd, hb⟩ | ⟨h0, hstatus, hmin, hmax, hsub, hpay⟩
  · exact .inl ⟨hd, h.blank hb⟩
  · refine .inr ⟨h0, ?_, ?_, ?_, ?_, ?_⟩
    · rw [h.status, hstatus]
      rfl
    · rw [h.minContractDuration, hmin]
      rfl
    · rw [h.maxContractDuration, hmax]
      rfl
    · rw [h.subscriptionRates]
      exact hsub
    · rw [h.payAsYouGoRates]
      exact hpay

/-- What a bond writes: a blank row, or the row that is there with a new amount. -/
theorem bond_writes {provider : PubKey} {service : String} {rel bondAbs : ℤ} {t : Int64}
    (hlow : ∀ names row, db.providers.lookup names = some row →
      ∀ r ∈ row.subscriptionRates ++ row.payAsYouGoRates, toLower r.1 = r.1)
    (h : db.writeMessage (t, .bondProvider provider service rel bondAbs) = some db') :
    ∃ row', db' = db.withProvider (provider, service) row' ∧
      ((db.providers.lookup (provider, service) = none ∧ row'.bond = bondAbs ∧ row'.Blank) ∨
        ∃ row, db.providers.lookup (provider, service) = some row ∧ Rebonds row bondAbs row') := by
  rcases bond_write h with ⟨hl, -, rfl⟩ | ⟨row, sr, pr, hl, hsr, hpr, rfl⟩
  · exact ⟨_, rfl, .inl ⟨hl, rfl, rfl, rfl, rfl, rfl, rfl⟩⟩
  · have hr := hlow _ row hl
    refine ⟨_, rfl, .inr ⟨row, hl, rfl, rfl, rfl, rfl, ?_, ?_⟩⟩
    · exact rateRows_findRates (fun r hmem => hr r (List.mem_append_left _ hmem)) hsr
    · exact rateRows_findRates (fun r hmem => hr r (List.mem_append_right _ hmem)) hpr

/-! ## Steps -/

/-- A change that leaves both tables alone. -/
theorem Lists.congr (h : Lists spell db s) (hdb : db'.providers = db.providers)
    (hs : s'.providers = s.providers) {es : List (Int64 × Event)}
    (he : s'.events = s.events ++ es) : Lists spell db' s' := by
  refine ⟨?_, ?_, ?_, ?_, ?_, ?_⟩
  · rw [hs]
    exact h.records
  · rw [hs]
    exact h.uris
  · rw [hs, hdb]
    exact h.rows
  · rw [hdb]
    exact h.spelled
  · intro names row hrow hmod
    rw [hdb] at hrow
    refine h.blank names row hrow ?_
    intro x hx
    refine hmod x ?_
    rw [he]
    exact List.mem_append_left _ hx
  · rw [hdb]
    exact h.lower

/-- Records of different keys have different names. -/
theorem Lists.names_ne (h : Lists spell db s) {key key' : String × ℕ} {q : Provider}
    (hq : s.providers.lookup key' = some q) (hne : key' ≠ key) {pubKey : PubKey}
    (hkey : toUpper pubKey = key.1) :
    (q.pubKey, serviceString q.service) ≠ (pubKey, serviceString key.2) := by
  intro heq
  obtain ⟨hp, hs⟩ := Prod.mk.inj heq
  refine hne ((h.records key' q hq).1.trans (Prod.ext ?_ (serviceString_injective hs)))
  rw [← hkey, hp]

/-- A row written under the names of a record. -/
theorem Lists.update (h : Lists spell db s) (key : String × ℕ) (pubKey : PubKey)
    (hkey : toUpper pubKey = key.1) (hspell : pubKey = spell key.1)
    (hdb : db'.providers = db.providers.insert (pubKey, serviceString key.2) row)
    (hev : s'.events = s.events ++ [ev])
    (hblank : (∀ x ∈ s.events, Event.modifies (pubKey, serviceString key.2) x.2 = false) →
      Event.modifies (pubKey, serviceString key.2) ev.2 = false → row.Blank)
    (hlow : ∀ r ∈ row.subscriptionRates ++ row.payAsYouGoRates, toLower r.1 = r.1)
    (hs : ∀ key' q, s'.providers.lookup key' = some q →
      (key' = key ∧ q.pubKey = pubKey ∧ q.service = key.2 ∧ Shows row q ∧
          q.metadataUri.toList.head? ≠ some '[') ∨
        key' ≠ key ∧ s.providers.lookup key' = some q) : Lists spell db' s' := by
  have hmods : ∀ names, (∀ x ∈ s'.events, Event.modifies names x.2 = false) →
      (∀ x ∈ s.events, Event.modifies names x.2 = false) ∧ Event.modifies names ev.2 = false := by
    intro names hall
    rw [hev] at hall
    exact ⟨fun x hx => hall x (List.mem_append_left _ hx),
      hall ev (List.mem_append_right _ (List.mem_singleton_self _))⟩
  refine ⟨?_, ?_, ?_, ?_, ?_, ?_⟩
  · intro key' q hq
    rcases hs key' q hq with ⟨rfl, hp, hsvc, -⟩ | ⟨-, hold⟩
    · refine ⟨?_, by rw [hp, hspell]⟩
      rw [hp, hsvc, hkey]
    · exact h.records key' q hold
  · intro key' q hq
    rcases hs key' q hq with ⟨-, -, -, -, huri⟩ | ⟨-, hold⟩
    · exact huri
    · exact h.uris key' q hold
  · intro key' q hq
    rcases hs key' q hq with ⟨rfl, hp, hsvc, hshow, -⟩ | ⟨hne, hold⟩
    · refine ⟨row, ?_, hshow⟩
      rw [hdb, hp, hsvc, AList.lookup_insert]
    · obtain ⟨r, hr, hshow⟩ := h.rows key' q hold
      refine ⟨r, ?_, hshow⟩
      rw [hdb, AList.lookup_insert_ne (h.names_ne hold hne hkey)]
      exact hr
  · intro names r hr
    rw [hdb] at hr
    by_cases hn : names = (pubKey, serviceString key.2)
    · rw [hn]
      show pubKey = spell (toUpper pubKey)
      rw [hkey]
      exact hspell
    · rw [AList.lookup_insert_ne hn] at hr
      exact h.spelled names r hr
  · intro names r hr hall
    obtain ⟨hold, hnew⟩ := hmods names hall
    rw [hdb] at hr
    by_cases hn : names = (pubKey, serviceString key.2)
    · subst hn
      rw [AList.lookup_insert] at hr
      obtain rfl := Option.some.inj hr
      exact hblank hold hnew
    · rw [AList.lookup_insert_ne hn] at hr
      exact h.blank names r hr hold
  · intro names r hr
    rw [hdb] at hr
    by_cases hn : names = (pubKey, serviceString key.2)
    · rw [hn, AList.lookup_insert] at hr
      obtain rfl := Option.some.inj hr
      exact hlow
    · rw [AList.lookup_insert_ne hn] at hr
      exact h.lower names r hr

/-- **A bond**, under the names the directory knows the record by, and on a fresh record only
where there were no settings before. -/
theorem Lists.bond (h : Lists spell db s) {msg : MsgBondProvider} {service : ℕ} {addr : Bytes}
    (hname : msg.service = serviceString service)
    (hspell : msg.provider = spell (toUpper msg.provider))
    (hnew : s.providers.lookup (toUpper msg.provider, service) = none →
      ∀ x ∈ s.events, Event.modifies (msg.provider, serviceString service) x.2 = false)
    (hw : db.writeMessage (ctx.blockHeight, .bondProvider msg.provider msg.service msg.bond
      ((s.providerOf msg.provider service).bond + msg.bond)) = some db') :
    Lists spell db' (s.bonded ctx msg service addr) := by
  obtain ⟨row', hdb, hrow⟩ := bond_writes h.lower hw
  rw [hname] at hdb hrow
  -- the record the bond is added to, with its row
  have hp : (s.providerOf msg.provider service).pubKey = msg.provider ∧
      (s.providerOf msg.provider service).service = service ∧
      Shows row' { s.providerOf msg.provider service with
        bond := (s.providerOf msg.provider service).bond + msg.bond
        lastUpdate := ctx.blockHeight } ∧
      (s.providerOf msg.provider service).metadataUri.toList.head? ≠ some '[' := by
    unfold ChainState.providerOf at hrow ⊢
    cases hl : s.providers.lookup (toUpper msg.provider, service) with
    | none =>
      rw [hl] at hrow
      have hempty : "".toList.head? ≠ some '[' := by decide
      refine ⟨rfl, rfl, ?_, hempty⟩
      rcases hrow with ⟨-, hbond, hblank⟩ | ⟨row, hr, hre⟩
      · exact ⟨hbond, .inl ⟨⟨rfl, rfl, rfl, rfl, rfl⟩, hblank⟩⟩
      · exact ⟨hre.bond, .inl ⟨⟨rfl, rfl, rfl, rfl, rfl⟩, hre.blank (h.blank _ row hr (hnew hl))⟩⟩
    | some p =>
      rw [hl] at hrow
      obtain ⟨hkey, hpk⟩ := h.records _ p hl
      have hpub : p.pubKey = msg.provider := hpk.trans hspell.symm
      have hsvc : p.service = service := (congrArg Prod.snd hkey).symm
      obtain ⟨r, hr, hshow⟩ := h.rows _ p hl
      rw [hpub, hsvc] at hr
      refine ⟨hpub, hsvc, ?_, h.uris _ p hl⟩
      rcases hrow with ⟨hnone, -⟩ | ⟨row, hr', hre⟩
      · cases hnone.symm.trans hr
      · obtain rfl : r = row := Option.some.inj (hr.symm.trans hr')
        exact hre.shows hshow _
  obtain ⟨hpub, hsvc, hshow, huri⟩ := hp
  have hins : db'.providers =
      db.providers.insert (msg.provider, serviceString service) row' := by
    rw [hdb]
    rfl
  refine h.update (toUpper msg.provider, service) msg.provider rfl hspell hins rfl ?_ ?_ ?_
  · intro hold _
    rcases hrow with ⟨-, -, hblank⟩ | ⟨row, hr, hre⟩
    · exact hblank
    · exact hre.blank (h.blank _ row hr hold)
  · rcases hrow with ⟨-, -, hblank⟩ | ⟨row, hr, hre⟩
    · rw [hblank.subscriptionRates, hblank.payAsYouGoRates]
      intro r hmem
      cases hmem
    · rw [hre.subscriptionRates, hre.payAsYouGoRates]
      exact h.lower _ row hr
  · intro key' q hq
    change (s.rebonded ctx _ _).lookup key' = some q at hq
    have hkey : (toUpper (s.providerOf msg.provider service).pubKey,
        (s.providerOf msg.provider service).service) = (toUpper msg.provider, service) := by
      rw [hpub, hsvc]
    unfold ChainState.rebonded at hq
    rw [hkey] at hq
    by_cases hk : key' = (toUpper msg.provider, service)
    · subst hk
      split at hq
      · rw [AList.lookup_erase] at hq
        cases hq
      · rw [AList.lookup_insert] at hq
        obtain rfl := Option.some.inj hq
        exact .inl ⟨rfl, hpub, hsvc, hshow, huri⟩
    · refine .inr ⟨hk, ?_⟩
      split at hq
      · rw [AList.lookup_erase_ne hk] at hq
        exact hq
      · rw [AList.lookup_insert_ne hk] at hq
        exact hq

/-- The URI of new settings: that of the message, or the one there was. -/
theorem Lists.settings_uri (h : Lists spell db s) {key : String × ℕ}
    (hp : s.providers.lookup key = some p) {msg : MsgModProvider}
    (hread : msg.metadataUri.toList.head? ≠ some '[') (ctx : Context) :
    (msg.settings ctx p).metadataUri.toList.head? ≠ some '[' := by
  simp only [MsgModProvider.settings]
  split
  · exact hread
  · exact h.uris _ p hp

/-- **New settings**, with denominations in lower case; the URI may have been changed. -/
theorem Lists.mod (h : Lists spell db s) {msg : MsgModProvider} {service : ℕ} {creator : Bytes}
    {uri : String}
    (hp : s.providers.lookup (toUpper msg.provider, service) = some p)
    (hmin : 0 < msg.minContractDuration.toInt)
    (hread : msg.metadataUri.toList.head? ≠ some '[')
    (hlow : ∀ coin ∈ msg.subscriptionRate ++ msg.payAsYouGoRate, toLower coin.denom = coin.denom)
    (hw : db.writeMessage (ctx.blockHeight, .modProvider
      { modEvent creator (msg.settings ctx p) with metadataUri := uri }) = some db') :
    Lists spell db' (s.modified ctx creator (msg.settings ctx p)) := by
  obtain ⟨hkey, hpk⟩ := h.records _ p hp
  obtain ⟨row, hrow, hdb⟩ := mod_write hw
  obtain ⟨r, hr, hshow⟩ := h.rows _ p hp
  obtain rfl : r = row := Option.some.inj (hr.symm.trans hrow)
  have hrates : ∀ coins : List Coin, (∀ coin ∈ coins, toLower coin.denom = coin.denom) →
      rateRows coins = ratesOf coins := by
    intro coins hc
    refine List.map_congr_left ?_
    intro coin hmem
    exact Prod.ext (hc coin hmem) rfl
  have hsvc : p.service = service := (congrArg Prod.snd hkey).symm
  refine h.update (toUpper msg.provider, service) p.pubKey (congrArg Prod.fst hkey).symm hpk
    (by rw [hdb, ← hsvc]; rfl) rfl ?_ ?_ ?_
  · intro _ hmod
    have htrue : Event.modifies (p.pubKey, serviceString service)
        (.modProvider (modEvent creator (msg.settings ctx p))) = true := by
      have hs : (modEvent creator (msg.settings ctx p)).service = serviceString service := by
        rw [← hsvc]
        rfl
      have hpub : (modEvent creator (msg.settings ctx p)).provider = p.pubKey := rfl
      simp [Event.modifies, hs, hpub]
    rw [htrue] at hmod
    cases hmod
  · intro x hx
    rcases List.mem_append.mp hx with hx | hx
    · exact mem_rateRows_lower hx
    · exact mem_rateRows_lower hx
  · intro key' q hq
    change (s.providers.insert (toUpper p.pubKey, p.service) _).lookup key' = some q at hq
    rw [← hkey] at hq
    by_cases hk : key' = (toUpper msg.provider, service)
    · rw [hk, AList.lookup_insert] at hq
      obtain rfl := Option.some.inj hq
      refine .inl ⟨hk, rfl, hsvc, ⟨hshow.bond, .inr ⟨hmin, rfl, rfl, rfl, ?_, ?_⟩⟩,
        h.settings_uri hp hread ctx⟩
      · exact hrates _ fun coin hc => hlow coin (List.mem_append_left _ hc)
      · exact hrates _ fun coin hc => hlow coin (List.mem_append_right _ hc)
    · rw [AList.lookup_insert_ne hk] at hq
      exact .inr ⟨hk, hq⟩

/-! ## Runs -/

/-- What a bond and new settings need of the directory: a bond spells the service as its id is
printed and the key in the way chosen for it, and makes a record only where there were no
settings for it before; settings have a status that has a name, a URI that does not begin as an
array, and the denominations of their rates in lower case. -/
def Listable (cr : Crypto) (spell : String → String) (w : World) : Action → Prop
  | .msg (.bondProvider msg) => (deliver cr w.ctx (.bondProvider msg) w.chain).isSome →
      ∀ service ∈ w.chain.serviceId? msg.service, msg.service = serviceString service ∧
        msg.provider = spell (toUpper msg.provider) ∧
        (w.chain.providers.lookup (toUpper msg.provider, service) = none →
          ∀ x ∈ w.chain.events, Event.modifies (msg.provider, serviceString service) x.2 = false)
  | .msg (.modProvider msg) => (deliver cr w.ctx (.modProvider msg) w.chain).isSome →
      (msg.status = .offline ∨ msg.status = .online) ∧
        msg.metadataUri.toList.head? ≠ some '[' ∧
        ∀ coin ∈ msg.subscriptionRate ++ msg.payAsYouGoRate, toLower coin.denom = coin.denom
  | _ => True

instance (cr : Crypto) (spell : String → String) (w : World) :
    ∀ a, Decidable (Listable cr spell w a)
  | .msg (.bondProvider msg) =>
      inferInstanceAs (Decidable ((deliver cr w.ctx (.bondProvider msg) w.chain).isSome → _))
  | .msg (.modProvider msg) =>
      inferInstanceAs (Decidable ((deliver cr w.ctx (.modProvider msg) w.chain).isSome → _))
  | .msg (.openContract _) | .msg (.closeContract _) | .msg (.claimContractIncome _)
  | .msg (.registerService _) | .msg (.updateService _) | .msg (.removeService _)
  | .send _ _ _ | .endBlock => isTrue trivial

/-- Accepted settings have a positive least duration. -/
theorem minContractDuration_pos {msg : MsgModProvider}
    (h : deliver cr ctx (.modProvider msg) s = some s') : 0 < msg.minContractDuration.toInt := by
  obtain ⟨hv, -⟩ := deliver_some h
  change msg.validateBasic cr s = .ok () s at hv
  unfold MsgModProvider.validateBasic at hv
  obtain ⟨_, -, hv₁⟩ := ofOption_bind_ok.mp hv
  obtain ⟨-, hv₂⟩ := failIf_bind_ok.mp hv₁
  obtain ⟨_, _, hs, hv₃⟩ := bind_ok.mp hv₂
  obtain ⟨-, rfl⟩ := mustGetSigner_ok.mp hs
  obtain ⟨_, -, hv₄⟩ := ofOption_bind_ok.mp hv₃
  simp only [failIf_bind_ok] at hv₄
  have hmin := hv₄.2.2.1
  rw [decide_eq_false_iff_not, Int64.le_iff_toInt_le, Int64.toInt_zero, not_le] at hmin
  exact hmin

/-- A change of the chain that emits nothing. -/
theorem Followed.lists_congr {f : Database → Int64 × Event → Option Database} {Ok : Event → Prop}
    (h : Followed f Ok (Lists spell) s) (hs : s'.providers = s.providers)
    (he : s'.events = s.events) : Followed f Ok (Lists spell) s' := by
  intro hok db hrun
  rw [he] at hok hrun
  exact (h hok db hrun).congr rfl hs (show s'.events = s.events ++ [] by rw [he, List.append_nil])

/-- What the directory lists of the chain, when no write fails. -/
abbrev Listing (b : Bech32 cr) (spell : String → String) (s : ChainState) : Prop :=
  Followed (Database.write b) (fun e => Genuine cr e ∧ Fits e) (Lists spell) s

/-- An event that is not about a provider. -/
theorem Listing.other (h : Listing b spell s) (hs : s'.providers = s.providers)
    (he : s'.events = s.events ++ [ev])
    (hev : ∀ provider service rel bondAbs, ev.2 ≠ .bondProvider provider service rel bondAbs)
    (hmod : ∀ e, ev.2 ≠ .modProvider e) : Listing b spell s' := by
  refine h.append he ?_
  intro db db' hok hl hw
  rcases write_some_iff.mp hw with ⟨-, rfl⟩ | ⟨e, hdec, hw⟩
  · exact hl.congr rfl hs he
  · refine hl.congr (write_providers ?_ ?_ hw) hs he
    · intro provider service rel bondAbs hbond
      obtain rfl : e = .bondProvider provider service rel bondAbs := hbond
      obtain ⟨t, d⟩ := ev
      have ha : Altered d (.bondProvider provider service rel bondAbs) := decoded_altered hok.1 hdec
      cases ha with
      | same => exact hev _ _ _ _ rfl
      | bond => exact hev _ _ _ _ rfl
    · intro x hx
      obtain rfl : e = .modProvider x := hx
      obtain ⟨t, d⟩ := ev
      have ha : Altered d (.modProvider x) := decoded_altered hok.1 hdec
      cases ha with
      | same => exact hmod _ rfl
      | settings => exact hmod _ rfl

theorem Listing.settle (h : Listing b spell s) (c : Contract) (isFinal : Bool) :
    Listing b spell (s.settle cr ctx c isFinal) :=
  h.other (s.settle_providers cr ctx c isFinal) (s.settle_events cr ctx c isFinal) nofun nofun

/-- What the directory writes of a bond that names its service as the id is printed. -/
theorem write_bond {service : ℕ} {provider : PubKey} {name : String} {rel bondAbs : ℤ}
    {t : Int64} (hname : name = serviceString service)
    (hok : Genuine cr (.bondProvider provider name rel bondAbs) ∧
      Fits (.bondProvider provider name rel bondAbs))
    (hw : db.write b (t, .bondProvider provider name rel bondAbs) = some db') :
    db.writeMessage (t, .bondProvider provider name rel bondAbs) = some db' := by
  have hintact : Intact (.bondProvider provider name rel bondAbs) := by
    show Passes name
    rw [hname]
    exact (plain_serviceString service).passes
  have hdec := decoded_of_intact b hok.1 hok.2 hintact
  rcases write_some_iff.mp hw with ⟨hnone, -⟩ | ⟨e, he, hw⟩
  · cases hnone.symm.trans hdec
  · obtain rfl := Option.some.inj (he.symm.trans hdec)
    exact hw

/-- What it writes of settings that can be read. -/
theorem write_settings {x : EventModProvider} {t : Int64}
    (hok : Genuine cr (.modProvider x) ∧ Fits (.modProvider x))
    (hstatus : x.status = .offline ∨ x.status = .online)
    (huri : x.metadataUri.toList.head? ≠ some '[')
    (hw : db.write b (t, .modProvider x) = some db') :
    ∃ uri, db.writeMessage (t, .modProvider { x with metadataUri := uri }) = some db' := by
  have hread := decoded_modProvider_isSome (b := b) hok.1 hok.2 hstatus huri
  rcases write_some_iff.mp hw with ⟨hnone, -⟩ | ⟨e, he, hw⟩
  · rw [hnone] at hread
    cases hread
  · have ha : Altered (.modProvider x) e := decoded_altered hok.1 he
    cases ha with
    | same => exact ⟨x.metadataUri, hw⟩
    | settings _ uri status hsame =>
      obtain rfl := hsame hstatus
      exact ⟨uri, hw⟩

/-- **One step** of the chain, when bonds and settings can be listed. -/
theorem listed_step (ho : Outcome cr w a w') (hi : Inv cr w.ctx w.chain)
    (hguard : Listable cr spell w a) (h : Listing b spell w.chain) : Listing b spell w'.chain := by
  cases ho with
  | rejected m => exact h
  | unsent src dst coin => exact h
  | provider m s' hdel hm hq hd =>
    rcases quiet_cases hm hdel with ⟨msg, service, addr, rfl, hb, rfl⟩ |
      ⟨msg, service, p, creator, rfl, hsvc, hp, hbond, rfl⟩ | ⟨e, he, hps, hev⟩
    · obtain ⟨hname, hspell, hnew⟩ := hguard (by rw [hdel]; rfl) service hb.service_eq
      refine h.append rfl ?_
      intro db db' hok hl hw
      exact hl.bond hname hspell hnew (write_bond hname hok hw)
    · obtain ⟨hstatus, huri, hlow⟩ := hguard (by rw [hdel]; rfl)
      refine h.append rfl ?_
      intro db db' hok hl hw
      obtain ⟨uri, hwritten⟩ := write_settings hok hstatus (hl.settings_uri hp huri w.ctx) hw
      exact hl.mod hp (minContractDuration_pos hdel) huri hlow hwritten
    · refine h.other hps hev ?_ ?_
      · rintro provider service rel bondAbs rfl
        cases he
      · rintro e' rfl
        cases he
  | opened msg signer service c hsvc hv hc ho =>
    refine h.other ?_ (w.chain.opened_events w.ctx c signer) ?_ ?_
    · simp [ChainState.opened, ChainState.list, ChainState.putUserIds, ChainState.charged]
    · intro provider service rel bondAbs he
      cases he
    · intro e he
      cases he
  | closed msg c t hd hc hid hopen hby hs ht =>
    have hrel : Listing b spell (w.chain.relisted w.ctx c) := by
      refine h.lists_congr ?_ ?_
      · unfold ChainState.relisted
        split <;> rfl
      · unfold ChainState.relisted
        split <;> rfl
    have hset : Listing b spell t := by
      rw [ht]
      exact hrel.settle c c.isSubscription
    refine hset.other rfl rfl ?_ ?_
    · intro provider service rel bondAbs he
      cases he
    · intro e he
      cases he
  | claimed msg c hc hid hn hset hf => exact h.settle _ false
  | sent src dst coin h0 hle =>
    exact h.lists_congr (ChainState.sent_providers ..) (ChainState.sent_events ..)
  | ended ctx' hctx =>
    refine ChainState.expireAll_induct ?_ hi h _
    intro t c _ _ _ ht
    exact (ht.settle _ true).lists_congr rfl rfl

/-- Every record of the chain has one row, which shows it. -/
def ProvidersMirrored (db : Database) (s : ChainState) : Prop :=
  ∀ key p, s.providers.lookup key = some p →
    (∃ row, db.providers.lookup (p.pubKey, serviceString p.service) = some row ∧ Shows row p) ∧
    ∀ pubkey, (db.providers.lookup (pubkey, serviceString p.service)).isSome →
      toUpper pubkey = toUpper p.pubKey → pubkey = p.pubKey

/-- **The directory mirrors every provider** of a run whose bonds and settings it can list, when
no write fails; the numbers of the events are of their types. -/
theorem providers_mirrored (b : Bech32 cr) (hg : Genesis w) {actions : List Action}
    (hrun : Runs.run (step cr) w actions = some w')
    (hlist : Runs.Guarded (step cr) (Listable cr spell) w actions)
    (hfits : ∀ x ∈ w'.chain.events, Fits x.2)
    (hdb : Runs.run (Database.write b) {} w'.chain.events = some db) :
    ProvidersMirrored db w'.chain := by
  have h0 : Listing b spell w.chain := by
    intro _ db hrun
    rw [hg.events] at hrun
    obtain rfl := Option.some.inj hrun
    refine ⟨?_, ?_, ?_, ?_, ?_, ?_⟩
    · rw [hg.providers]
      intro key p hp
      cases hp
    · rw [hg.providers]
      intro key p hp
      cases hp
    · rw [hg.providers]
      intro key p hp
      cases hp
    · intro names row hrow
      cases hrow
    · intro names row hrow
      cases hrow
    · intro names row hrow
      cases hrow
  have hall : Inv cr w'.ctx w'.chain ∧ Listing b spell w'.chain := by
    refine Runs.run_induct_of_guarded (P := fun v => Inv cr v.ctx v.chain ∧
      Listing b spell v.chain) ?_ ⟨hg.inv, h0⟩ hlist hrun
    rintro v a v' ⟨hi, hf⟩ hguard hstep
    have ho := step_outcome hi hstep
    exact ⟨ho.inv hi, listed_step ho hi hguard hf⟩
  have hgenuine := (reachable_vouched hg hrun).events
  have hl := hall.2 (fun x hx => ⟨hgenuine x hx, hfits x hx⟩) db hdb
  intro key p hp
  refine ⟨hl.rows key p hp, ?_⟩
  intro pubkey hsome hup
  obtain ⟨row, hrow⟩ := Option.isSome_iff_exists.mp hsome
  obtain ⟨hkey, hpk⟩ := hl.records key p hp
  have hspell : pubkey = spell (toUpper pubkey) := hl.spelled _ row hrow
  rw [hkey] at hpk
  exact hspell.trans ((congrArg spell hup).trans hpk.symm)

namespace Sample
open Arkeo.Sample

/-- The provider bonds and sets its terms. -/
theorem setup_mirrored : ∃ w db, Runs.run (step crypto) genesis setup = some w ∧
    Runs.run (Database.write bech32) {} w.chain.events = some db ∧
    (w.chain.providers.lookup (toUpper provider.pubKey, 10)).isSome ∧
    ProvidersMirrored db w.chain := by
  have h : ((Runs.run (step crypto) genesis setup).bind fun w =>
      (Runs.run Database.writeMessage {} w.chain.events).map fun _ =>
        (decide (∀ x ∈ w.chain.events, Fits x.2 ∧ Intact x.2),
          (w.chain.providers.lookup (toUpper provider.pubKey, 10)).isSome)) =
      some (true, true) := by
    rw [setup_run]
    decide +kernel
  have hlist : Runs.Guarded (step crypto) (Listable crypto toLower) genesis setup := by
    decide +kernel
  obtain ⟨w, hw, h⟩ := Option.bind_eq_some_iff.mp h
  obtain ⟨db, hdb, h⟩ := Option.map_eq_some_iff.mp h
  obtain ⟨hd, hsome⟩ := Prod.mk.inj h
  have hall := of_decide_eq_true hd
  rw [← write_of_intact bech32 (reachable_intact genesis_ok hw hall)] at hdb
  exact ⟨w, db, hw, hdb, hsome,
    providers_mirrored bech32 genesis_ok hw hlist (fun x hx => (hall x hx).1) hdb⟩

/-- The provider withdraws its bond and bonds again. -/
def rebonded : List Action :=
  setup ++
    [.msg (.bondProvider
      { creator := provider.account, provider := provider.pubKey, service := service
        bond := -100000000 }),
     .msg (.bondProvider
      { creator := provider.account, provider := provider.pubKey, service := service
        bond := 100000000 })]

/-- Its record is new and without settings; its row has the settings of the old one. -/
theorem rebonded_stale : ∃ w db, Runs.run (step crypto) genesis rebonded = some w ∧
    Runs.run (Database.write bech32) {} w.chain.events = some db ∧ ¬ProvidersMirrored db w.chain := by
  have h : ((Runs.run (step crypto) genesis rebonded).bind fun w =>
      (Runs.run Database.writeMessage {} w.chain.events).bind fun db =>
        (w.chain.providers.lookup (toUpper provider.pubKey, 10)).bind fun p =>
          (db.providers.lookup (p.pubKey, serviceString p.service)).map fun row =>
            (decide (∀ x ∈ w.chain.events, Fits x.2 ∧ Intact x.2), p.minContractDuration,
              row.status)) = some (true, 0, some .online) := by
    rw [rebonded, Runs.run_append_of setup_run]
    decide +kernel
  obtain ⟨w, hw, h⟩ := Option.bind_eq_some_iff.mp h
  obtain ⟨db, hdb, h⟩ := Option.bind_eq_some_iff.mp h
  obtain ⟨p, hp, h⟩ := Option.bind_eq_some_iff.mp h
  obtain ⟨row, hrow, h⟩ := Option.map_eq_some_iff.mp h
  simp only [Prod.mk.injEq] at h
  obtain ⟨hd, hmin, hstatus⟩ := h
  have hall := of_decide_eq_true hd
  rw [← write_of_intact bech32 (reachable_intact genesis_ok hw hall)] at hdb
  refine ⟨w, db, hw, hdb, ?_⟩
  intro hm
  obtain ⟨⟨row', hrow', hshow⟩, -⟩ := hm _ p hp
  obtain rfl : row = row' := Option.some.inj (hrow.symm.trans hrow')
  rcases hshow.settings with ⟨-, hblank⟩ | ⟨hpos, -⟩
  · have hoff := hblank.status
    rw [hstatus] at hoff
    cases hoff
  · rw [hmin] at hpos
    cases hpos

end Sample

end Arkeo.Directory
