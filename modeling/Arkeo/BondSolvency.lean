import Arkeo.Bonds

/-! # The provider module is solvent

`Bonded` is the invariant of the bonds over whole runs: records stand under their
own keys with positive bonds, the provider module holds their sum, and what a key
has bonded is what it has paid in less what it has taken out.  Messages about
contracts and services and the end of a block leave the bonds alone
(`BondFrame`).
-/
namespace Arkeo
open Exec

variable {cr : Crypto} {ctx : Context} {s s' : ChainState} {w w' : World} {a : Action} {u : Unit}

/-! ## What a run does to the bonds -/

/-- The bond a message pays in for a key, negative where it takes out. -/
def Msg.bondBy (key : String) : Msg → ℤ
  | .bondProvider msg => if toUpper msg.provider = key then msg.bond else 0
  | _ => 0

/-- What a key has paid in, in all. -/
def World.deposited (w : World) (key : String) : ℤ :=
  (w.accepted.map fun m => max (m.bondBy key) 0).sum

/-- What a key has taken out, in all. -/
def World.withdrawn (w : World) (key : String) : ℤ :=
  (w.accepted.map fun m => max (-m.bondBy key) 0).sum

/-- The transfer an accepted message makes for a bond. -/
def Msg.bondPosting? (cr : Crypto) : Msg → Option Posting
  | .bondProvider msg => (cr.getMyAddress msg.provider).map msg.posting
  | _ => none

/-- The transfers the bank made for bonds. -/
def ChainState.bondPostings (s : ChainState) : List Posting :=
  s.journal.filter fun p => p.purpose = .bond

/-- What the provider module holds beyond the bonds. -/
def ChainState.bondSurplus (s : ChainState) : ℤ :=
  s.balance (.module .provider) denom - s.bondSum

/-- A transfer to the provider module that is no bond. -/
def Action.isBondGift : Action → Prop
  | .send _ dst _ => dst = .module .provider
  | _ => False

/-- The invariant of the bonds. -/
structure Bonded (cr : Crypto) (w : World) : Prop where
  stored : w.chain.StoredProviders cr
  backed : 0 ≤ w.chain.bondSurplus
  net : ∀ key, w.chain.bondOf key = w.deposited key - w.withdrawn key
  postings : w.chain.bondPostings = w.accepted.filterMap (Msg.bondPosting? cr)

/-- A change that leaves the bonds alone. -/
structure BondFrame (s s' : ChainState) : Prop where
  providers : s'.providers = s.providers
  balance : s'.balance (.module .provider) denom = s.balance (.module .provider) denom
  postings : s'.bondPostings = s.bondPostings

namespace BondFrame

theorem refl (s : ChainState) : BondFrame s s := ⟨rfl, rfl, rfl⟩

theorem trans {t : ChainState} (h : BondFrame s t) (h' : BondFrame t s') : BondFrame s s' :=
  ⟨h'.providers.trans h.providers, h'.balance.trans h.balance, h'.postings.trans h.postings⟩

theorem surplus (h : BondFrame s s') : s'.bondSurplus = s.bondSurplus := by
  unfold ChainState.bondSurplus ChainState.bondSum
  rw [h.providers, h.balance]

theorem sent {src dst : Account} {coin : Coin} {p : Purpose} (hsrc : src ≠ .module .provider)
    (hdst : dst ≠ .module .provider) (hp : p ≠ .bond) : BondFrame s (s.sent src dst coin p) := by
  refine ⟨s.sent_providers .., ?_, ?_⟩
  · rw [ChainState.sent_balance, if_neg (fun h => hsrc h.1.symm), if_neg (fun h => hdst h.1.symm)]
    omega
  · unfold ChainState.bondPostings
    rw [ChainState.sent_journal, List.filter_append]
    split
    · simp
    · simp [hp]

theorem opened (signer : Bytes) (c : Contract) : BondFrame s (s.opened ctx signer c) := by
  have hcost : BondFrame s (s.sent (.user signer) (.module .reserve)
      ⟨denom, (fetchConfig .openContractCost).toInt⟩ .openCost) :=
    .sent (by simp) (by simp) (by simp)
  have hall : BondFrame s (s.charged signer c) := hcost.trans (.sent (by simp) (by simp) (by simp))
  exact ⟨hall.providers, hall.balance, hall.postings⟩

theorem settle (cr : Crypto) (ctx : Context) (c : Contract) (isFinal : Bool) :
    BondFrame s (s.settle cr ctx c isFinal) := by
  have hpay : ∀ income tax refund, BondFrame s (s.payout cr c income tax refund) := by
    intro income tax refund
    have h₁ : BondFrame s (s.sent (.module .contract) (cr.account c.provider)
        ⟨c.rate.denom, income⟩ (.income c.id)) := .sent (by simp) (by simp [Crypto.account]) (by simp)
    have h₂ : BondFrame s ((s.sent (.module .contract) (cr.account c.provider)
        ⟨c.rate.denom, income⟩ (.income c.id)).sent (.module .contract) (.module .reserve)
        ⟨c.rate.denom, tax⟩ (.tax c.id)) := h₁.trans (.sent (by simp) (by simp) (by simp))
    exact h₂.trans (.sent (by simp) (by simp [Crypto.account]) (by simp))
  refine ⟨ChainState.settle_providers .., ?_, ?_⟩
  · rw [ChainState.balance, ChainState.settle_bank]
    exact (hpay _ _ _).balance
  · rw [ChainState.bondPostings, ChainState.settle_journal]
    exact (hpay _ _ _).postings

theorem relisted (ctx : Context) (c : Contract) : BondFrame s (s.relisted ctx c) := by
  unfold ChainState.relisted
  split
  · exact ⟨rfl, rfl, rfl⟩
  · exact .refl s

theorem expireAll (hi : Inv cr ctx s) (ids : List ℕ) : BondFrame s (s.expireAll cr ctx ids) := by
  refine ChainState.expireAll_induct (P := BondFrame s) ?_ hi (.refl s) ids
  intro t c _ _ _ h
  have hset := h.trans (.settle cr ctx (c.raiseNonce 0) true)
  exact ⟨hset.providers, hset.balance, hset.postings⟩

end BondFrame

/-- An accepted message that is no bond changes no total. -/
theorem Bonded.of_frame {m : Msg} {ctx' : Context} (h : Bonded cr w) (hf : BondFrame w.chain s')
    (hm : ∀ key, m.bondBy key = 0) (hp : m.bondPosting? cr = none) :
    Bonded cr { ctx := ctx', chain := s', accepted := w.accepted ++ [m] } := by
  refine ⟨?_, ?_, ?_, ?_⟩
  · intro key p hl
    rw [hf.providers] at hl
    exact h.stored key p hl
  · show 0 ≤ s'.bondSurplus
    rw [hf.surplus]
    exact h.backed
  · intro key
    have hnet := h.net key
    simp only [ChainState.bondOf, ChainState.bondWhere, World.deposited, World.withdrawn,
      hf.providers, List.map_append, List.map_cons, List.map_nil, List.sum_append, List.sum_cons,
      List.sum_nil, hm, neg_zero, max_self, add_zero] at hnet ⊢
    exact hnet
  · show s'.bondPostings = _
    rw [hf.postings, h.postings, List.filterMap_append]
    simp [hp]

/-- A step that accepts no message and takes nothing from the module. -/
theorem Bonded.of_quiet {ctx' : Context} (h : Bonded cr w) (hp : s'.providers = w.chain.providers)
    (hb : w.chain.balance (.module .provider) denom ≤ s'.balance (.module .provider) denom)
    (hj : s'.bondPostings = w.chain.bondPostings) :
    Bonded cr { ctx := ctx', chain := s', accepted := w.accepted } := by
  refine ⟨?_, ?_, ?_, ?_⟩
  · intro key p hl
    rw [hp] at hl
    exact h.stored key p hl
  · have hback := h.backed
    unfold ChainState.bondSurplus ChainState.bondSum at hback ⊢
    rw [hp]
    simp only
    omega
  · intro key
    have hnet := h.net key
    simp only [ChainState.bondOf, ChainState.bondWhere, World.deposited, World.withdrawn, hp]
      at hnet ⊢
    exact hnet
  · show s'.bondPostings = _
    rw [hj]
    exact h.postings

/-- A bond message moves its coin in or out. -/
theorem ChainState.bonded_balance (s : ChainState) (ctx : Context) (msg : MsgBondProvider)
    (service : ℕ) (addr : Bytes) :
    (s.bonded ctx msg service addr).balance (.module .provider) denom =
      s.balance (.module .provider) denom + msg.bond := by
  show (s.sent _ _ msg.coin .bond).balance _ _ = _
  rw [sent_balance]
  unfold MsgBondProvider.posting MsgBondProvider.coin
  by_cases h : 0 < msg.bond
  · simp only [if_pos h, reduceCtorEq, false_and, if_false, and_self, if_true]
    omega
  · simp only [if_neg h, reduceCtorEq, false_and, if_false, and_self, if_true]
    omega

theorem ChainState.bonded_surplus (h : s.StoredProviders cr) (ctx : Context)
    (msg : MsgBondProvider) (service : ℕ) (addr : Bytes) :
    (s.bonded ctx msg service addr).bondSurplus = s.bondSurplus := by
  unfold bondSurplus
  rw [bonded_balance, bondSum_eq, bondSum_eq, bondWhere_bonded h, if_pos rfl]
  omega

theorem ChainState.bonded_postings {msg : MsgBondProvider} (hne : msg.bond ≠ 0) (ctx : Context)
    (service : ℕ) (addr : Bytes) : (s.bonded ctx msg service addr).bondPostings =
      s.bondPostings ++ [msg.posting addr] := by
  have hj : (s.bonded ctx msg service addr).journal = s.journal ++ [msg.posting addr] := by
    show (s.sent _ _ msg.coin .bond).journal = _
    have hcoin : msg.coin.amount ≠ 0 := by
      show (msg.bond.natAbs : ℤ) ≠ 0
      omega
    rw [sent_journal, if_neg hcoin]
    unfold MsgBondProvider.posting
    split <;> rfl
  have hpurpose : (msg.posting addr).purpose = .bond := by
    unfold MsgBondProvider.posting
    split <;> rfl
  unfold bondPostings
  rw [hj, List.filter_append]
  simp [hpurpose]

/-- **A bond** keeps the invariant. -/
theorem Bonded.bond {msg : MsgBondProvider} {service : ℕ} {addr : Bytes} (h : Bonded cr w)
    (hb : Bonding cr w.chain msg service addr) {creator : String}
    (hc : cr.accAddressFromBech32 creator = some addr) :
    Bonded cr { w with
      chain := w.chain.bonded w.ctx msg service addr
      accepted := w.accepted ++ [.bondProvider msg] } := by
  refine ⟨h.stored.bonded hb hc w.ctx, ?_, ?_, ?_⟩
  · show 0 ≤ (w.chain.bonded w.ctx msg service addr).bondSurplus
    rw [ChainState.bonded_surplus h.stored]
    exact h.backed
  · intro key
    have hnet := h.net key
    show (w.chain.bonded w.ctx msg service addr).bondWhere _ = _
    rw [ChainState.bondWhere_bonded h.stored]
    have hby : (Msg.bondProvider msg).bondBy key =
        if toUpper msg.provider = key then msg.bond else 0 := rfl
    unfold ChainState.bondOf World.deposited World.withdrawn at *
    simp only [List.map_append, List.map_cons, List.map_nil, List.sum_append, List.sum_cons,
      List.sum_nil, hby, decide_eq_true_eq]
    rw [hnet]
    split <;> omega
  · show (w.chain.bonded w.ctx msg service addr).bondPostings = _
    rw [ChainState.bonded_postings hb.ne_zero, h.postings, List.filterMap_append]
    simp [Msg.bondPosting?, hb.addr_eq]

/-- The signer of an accepted bond message has the address of its provider. -/
theorem MsgBondProvider.validateBasic_signer {msg : MsgBondProvider} {addr : Bytes}
    (h : msg.validateBasic cr s = .ok u s') (ha : cr.getMyAddress msg.provider = some addr) :
    cr.accAddressFromBech32 msg.creator = some addr := by
  unfold validateBasic at h
  rw [ofOption_bind_ok] at h
  obtain ⟨pk, hpk, h₁⟩ := h
  obtain ⟨rfl, -⟩ := Crypto.newPubKey_some hpk
  obtain ⟨signer, _, hs, h₂⟩ := bind_ok.mp h₁
  obtain ⟨hsigner, rfl⟩ := mustGetSigner_ok.mp hs
  rw [ofOption_bind_ok] at h₂
  obtain ⟨addr', ha', h₃⟩ := h₂
  rw [ha] at ha'
  obtain rfl := Option.some.inj ha'
  rw [failIf_bind_ok] at h₃
  have hsame : signer = addr := by simpa using h₃.1
  rw [← hsame]
  exact hsigner

/-- What new settings do to the sums of bonds: nothing. -/
theorem modProvider_frame {msg : MsgModProvider} (h : modProvider cr ctx msg s = .ok u s')
    (hs : s.StoredProviders cr) :
    s'.StoredProviders cr ∧ (∀ Q, s'.bondWhere Q = s.bondWhere Q) ∧ s'.bank = s.bank ∧
      s'.journal = s.journal := by
  obtain ⟨service, p, p', hl, hpk, hsvc, hbond, hps, hbank, hj, -⟩ := modProvider_keeps h
  have hst := hs _ p hl
  have hpos := hst.positive
  rw [if_neg (by omega), ← hst.key_eq] at hps
  refine ⟨?_, ?_, hbank, hj⟩
  · intro key q hq
    rw [hps] at hq
    by_cases hk : key = (toUpper msg.provider, service)
    · rw [hk, AList.lookup_insert] at hq
      obtain rfl := Option.some.inj hq
      rw [hk]
      exact ⟨by rw [hpk, hsvc]; exact hst.key_eq, by rw [hbond]; exact hpos,
        by rw [hpk]; exact hst.named, by rw [hpk]; exact hst.signer⟩
    · rw [AList.lookup_insert_ne hk] at hq
      exact hs key q hq
  · intro Q
    unfold ChainState.bondWhere
    rw [hps, AList.sumOver_insert, AList.valueAt_of_lookup hl, hbond]
    omega

/-- **One step** keeps the invariant of the bonds, and only a gift changes what the
module holds beyond them. -/
theorem Bonded.step (h : Bonded cr w) (hi : Inv cr w.ctx w.chain) (hstep : step cr w a = some w') :
    Bonded cr w' ∧ (¬a.isBondGift → w'.chain.bondSurplus = w.chain.bondSurplus) := by
  cases step_outcome hi hstep with
  | rejected m => exact ⟨h, fun _ => rfl⟩
  | unsent src dst coin => exact ⟨h, fun _ => rfl⟩
  | provider m s' hdel hm hq hd =>
    obtain ⟨hv, hh⟩ := deliver_some hdel
    cases m with
    | bondProvider msg =>
      obtain ⟨service, addr, hb, rfl⟩ := bondProvider_iff.mp hh
      have hc := MsgBondProvider.validateBasic_signer hv hb.addr_eq
      exact ⟨h.bond hb hc, fun _ => ChainState.bonded_surplus h.stored _ _ _ _⟩
    | modProvider msg =>
      obtain ⟨hs, hsum, hbank, hj⟩ := modProvider_frame hh h.stored
      have hsur : s'.bondSurplus = w.chain.bondSurplus := by
        unfold ChainState.bondSurplus ChainState.balance
        rw [ChainState.bondSum_eq, ChainState.bondSum_eq, hsum, hbank]
      have hback := h.backed
      refine ⟨⟨hs, by rw [hsur]; exact hback, ?_, ?_⟩, fun _ => hsur⟩
      · intro key
        have hnet := h.net key
        unfold ChainState.bondOf at hnet ⊢
        rw [hsum, hnet]
        simp [World.deposited, World.withdrawn, Msg.bondBy]
      · have hpost := h.postings
        unfold ChainState.bondPostings at hpost ⊢
        rw [hj, hpost]
        simp [Msg.bondPosting?]
    | registerService msg =>
      obtain ⟨-, -, rfl⟩ := registerService_ok hh
      have hf : BondFrame w.chain
          (w.chain.withService w.ctx msg.record .registerService) := ⟨rfl, rfl, rfl⟩
      exact ⟨h.of_frame hf (fun _ => rfl) rfl, fun _ => hf.surplus⟩
    | updateService msg =>
      obtain ⟨_, -, -, rfl⟩ := updateService_ok hh
      have hf : BondFrame w.chain
          (w.chain.withService w.ctx msg.record .updateService) := ⟨rfl, rfl, rfl⟩
      exact ⟨h.of_frame hf (fun _ => rfl) rfl, fun _ => hf.surplus⟩
    | removeService msg =>
      obtain ⟨svc, -, rfl⟩ := removeService_ok hh
      have hf : BondFrame w.chain
          (w.chain.withoutService w.ctx svc (toLower msg.name)) := ⟨rfl, rfl, rfl⟩
      exact ⟨h.of_frame hf (fun _ => rfl) rfl, fun _ => hf.surplus⟩
    | openContract msg => cases hm
    | closeContract msg => cases hm
    | claimContractIncome msg => cases hm
  | opened msg signer service c hsvc hv hc ho =>
    have hf : BondFrame w.chain (w.chain.opened w.ctx signer c) := .opened signer c
    exact ⟨h.of_frame hf (fun _ => rfl) rfl, fun _ => hf.surplus⟩
  | closed msg c t hd hc hid hopen hby hs ht =>
    have hset : BondFrame w.chain t := by
      rw [ht]
      exact (BondFrame.relisted w.ctx c).trans (.settle cr w.ctx c c.isSubscription)
    have hf : BondFrame w.chain
        { t with events := t.events ++ [(w.ctx.blockHeight, closeEvent c)] } :=
      ⟨hset.providers, hset.balance, hset.postings⟩
    exact ⟨h.of_frame hf (fun _ => rfl) rfl, fun _ => hf.surplus⟩
  | claimed msg c hc hid hn hset hf =>
    have hf : BondFrame w.chain (w.chain.settle cr w.ctx (c.raiseNonce msg.nonce) false) :=
      .settle cr w.ctx _ _
    exact ⟨h.of_frame hf (fun _ => rfl) rfl, fun _ => hf.surplus⟩
  | sent src dst coin h0 hle =>
    have hbal := ChainState.sent_balance (s := w.chain) (.user src) dst coin .other
      (.module .provider) denom
    simp only [reduceCtorEq, false_and, if_false, sub_zero] at hbal
    have hpost : (w.chain.sent (.user src) dst coin .other).bondPostings =
        w.chain.bondPostings := by
      unfold ChainState.bondPostings
      rw [ChainState.sent_journal, List.filter_append]
      split <;> simp
    refine ⟨h.of_quiet (ChainState.sent_providers ..) ?_ hpost, ?_⟩
    · rw [hbal]
      split <;> omega
    · intro hgift
      exact (BondFrame.sent (by simp) hgift (by simp)).surplus
  | ended ctx' hctx =>
    have hf := BondFrame.expireAll hi (w.chain.listedAt w.ctx.blockHeight)
    exact ⟨h.of_quiet hf.providers hf.balance.ge hf.postings, fun _ => hf.surplus⟩

theorem Genesis.bonded (hg : Genesis w) : Bonded cr w where
  stored key p h := by
    rw [hg.providers] at h
    cases h
  backed := by
    unfold ChainState.bondSurplus ChainState.bondSum
    rw [hg.providers, AList.sumOver_empty]
    have := hg.nonneg (.module .provider) denom
    unfold ChainState.balance
    omega
  net key := by
    unfold ChainState.bondOf ChainState.bondWhere World.deposited World.withdrawn
    rw [hg.providers, AList.sumOver_empty, hg.accepted]
    rfl
  postings := by
    unfold ChainState.bondPostings
    rw [hg.journal, hg.accepted]
    rfl

/-- **The bonds of every reachable state.** -/
theorem reachable_bonded (hg : Genesis w) {actions : List Action}
    (h : Runs.run (step cr) w actions = some w') :
    Bonded cr w' ∧ ((∀ a ∈ actions, ¬a.isBondGift) →
      w'.chain.bondSurplus = w.chain.bondSurplus) := by
  have hi : Inv cr w.ctx w.chain := hg.inv
  have hb : Bonded cr w := hg.bonded
  clear hg
  induction actions generalizing w with
  | nil =>
    obtain rfl := Option.some.inj h
    exact ⟨hb, fun _ => rfl⟩
  | cons a actions ih =>
    obtain ⟨t, ht, hl⟩ := Runs.run_cons.mp h
    obtain ⟨hbt, hsur⟩ := hb.step hi ht
    obtain ⟨hb', hsur'⟩ := ih hl ((step_outcome hi ht).inv hi) hbt
    refine ⟨hb', ?_⟩
    intro hn
    obtain ⟨ha, hn⟩ := List.forall_mem_cons.mp hn
    exact (hsur' hn).trans (hsur ha)

theorem invariantBondModule_ok (h : 0 ≤ s.bondSurplus) : invariantBondModule s = .ok () s := by
  unfold invariantBondModule
  rw [reading_bind, reading_bind, failIf_ok]
  refine ⟨?_, rfl⟩
  rw [decide_eq_false_iff_not]
  unfold ChainState.bondSurplus at h
  omega

/-- **The provider module is solvent.**  In every reachable state every bond is
positive, the module holds the sum of the bonds (exactly that, if it was empty at
the start and nobody sent it coins), the end blocker's check of it passes, and a
key has withdrawn at most what it has deposited, where the coins moved are those
the accepted messages name. -/
theorem provider_module_solvent (hg : Genesis w) {actions : List Action}
    (h : Runs.run (step cr) w actions = some w') :
    (∀ key p, w'.chain.providers.lookup key = some p → 0 < p.bond) ∧
    w'.chain.bondSum ≤ w'.chain.balance (.module .provider) denom ∧
    (w.chain.balance (.module .provider) denom = 0 → (∀ a ∈ actions, ¬a.isBondGift) →
      w'.chain.balance (.module .provider) denom = w'.chain.bondSum) ∧
    (invariantBondModule w'.chain = .ok () w'.chain ∧
      ∃ s, contractEndBlock cr w'.ctx w'.chain = .ok () s ∧ invariantBondModule s = .ok () s) ∧
    (∀ key, w'.withdrawn key ≤ w'.deposited key) ∧
    w'.chain.bondPostings = w'.accepted.filterMap (Msg.bondPosting? cr) := by
  have hi := reachable_inv hg h
  obtain ⟨hb, hsur⟩ := reachable_bonded hg h
  have hback := hb.backed
  refine ⟨fun key p hp => (hb.stored key p hp).positive, ?_, ?_, ⟨invariantBondModule_ok hback, ?_⟩,
    ?_, hb.postings⟩
  · unfold ChainState.bondSurplus at hback
    omega
  · intro hzero hn
    have hsame := hsur hn
    have hnone : w.chain.bondSum = 0 := by
      rw [ChainState.bondSum, hg.providers, AList.sumOver_empty]
    unfold ChainState.bondSurplus at hsame
    omega
  · refine ⟨_, contractEndBlock_eq hi, invariantBondModule_ok ?_⟩
    rw [(BondFrame.expireAll hi _).surplus]
    exact hback
  · intro key
    have hnonneg : 0 ≤ w'.chain.bondOf key := by
      unfold ChainState.bondOf ChainState.bondWhere
      refine AList.sumOver_nonneg ?_
      intro k p hp
      have := (hb.stored k p hp).positive
      split <;> omega
    have hnet := hb.net key
    omega

/-- In the sample run the module holds the provider's bond and nothing else. -/
theorem provider_module_solvent_at_lifetimes : ∃ w,
    Runs.run (step Sample.crypto) Sample.genesis Sample.lifetimes = some w ∧
    w.chain.balance (.module .provider) denom = w.chain.bondSum := by
  obtain ⟨w, w', c, hw, -⟩ := Sample.lifetimes_run
  refine ⟨w, hw, (provider_module_solvent Sample.genesis_ok hw).2.2.1 ?_ ?_⟩
  · change Ledger.bal Sample.bank (.module .provider) denom = 0
    rw [Sample.bank, Ledger.bal_credit, Ledger.bal_credit]
    rfl
  · intro a ha
    simp only [Sample.lifetimes, Sample.setup, List.cons_append, List.nil_append, List.mem_cons,
      List.not_mem_nil, or_false] at ha
    rcases ha with rfl | rfl | rfl | rfl | rfl | rfl | rfl <;> exact id

end Arkeo
