import Arkeo.Bonds

/-! # Leaving a contract

A client may end a contract as long as it is open, whatever the provider does and whatever has
happened to the provider's record or to the service: in a reachable store a close message is
accepted exactly if it is signed by the client of an open contract (`close_accepted_iff`).  The
one exception is a subscription that was settled in this very block, which still counts as open.
A subscription that is closed pays out all that remains of its deposit, what has been earned so
far to the provider and the reserve and the rest to the client (`subscription_refunded`).
-/
namespace Arkeo
open Exec

variable {cr : Crypto} {ctx : Context} {s s' : ChainState} {w w' : World} {u : Unit}
  {msg : MsgCloseContract} {c : Contract}

/-! ## What a close takes -/

/-- The message is signed with the key it names. -/
def MsgCloseContract.Signed (cr : Crypto) (msg : MsgCloseContract) : Prop :=
  msg.creator ≠ "" ∧ msg.contractId ≠ 0 ∧ ∃ key addr, msg.client = some key ∧
    cr.getMyAddress key = some addr ∧ cr.accAddressFromBech32 msg.creator = some addr

/-- The contract can be closed by the message. -/
structure Contract.Closable (cr : Crypto) (ctx : Context) (c : Contract)
    (msg : MsgCloseContract) : Prop where
  closedBy : c.ClosedBy cr msg
  isOpen : c.isOpen ctx.blockHeight = true
  delegate : ∀ delegate, msg.delegate = some delegate → delegate = c.delegate
  /-- In the block in which it is settled a contract still counts as open. -/
  unsettled : c.isSubscription = true → c.settlementHeight = 0

/-- The store after a contract is closed. -/
def ChainState.closed (cr : Crypto) (ctx : Context) (c : Contract) (s : ChainState) : ChainState :=
  let t := (s.relisted ctx c).settle cr ctx c c.isSubscription
  { t with events := t.events ++ [(ctx.blockHeight, closeEvent c)] }

theorem MsgCloseContract.validateBasic_iff :
    msg.validateBasic cr s = .ok u s' ↔ msg.Signed cr ∧ s = s' := by
  unfold validateBasic Signed
  simp only [failIf_bind_ok, ofOption_bind_ok, decide_eq_false_iff_not]
  constructor
  · rintro ⟨hcreator, hid, key, hkey, -, -, h⟩
    obtain ⟨signer, _, hs, h⟩ := bind_ok.mp h
    obtain ⟨hsigner, rfl⟩ := mustGetSigner_ok.mp hs
    obtain ⟨addr, haddr, h⟩ := ofOption_bind_ok.mp h
    obtain ⟨hsame, rfl⟩ := failIf_ok.mp h
    have hsame : signer = addr := by simpa using hsame
    exact ⟨⟨hcreator, hid, key, addr, hkey, haddr, by rw [← hsame]; exact hsigner⟩, rfl⟩
  · rintro ⟨⟨hcreator, hid, key, addr, hkey, haddr, hsigner⟩, rfl⟩
    refine ⟨hcreator, hid, key, hkey, key, Crypto.newPubKey_of_address haddr, ?_⟩
    refine bind_ok.mpr ⟨addr, s, mustGetSigner_ok.mpr ⟨hsigner, rfl⟩, ?_⟩
    refine ofOption_bind_ok.mpr ⟨addr, haddr, failIf_ok.mpr ⟨?_, rfl⟩⟩
    simp

theorem closeContractValidate_iff : closeContractValidate cr ctx msg s = .ok u s' ↔
    (∃ c, s.contracts.lookup msg.contractId = some c ∧ c.ClosedBy cr msg ∧
      c.isOpen ctx.blockHeight = true ∧
      ∀ delegate, msg.delegate = some delegate → delegate = c.delegate) ∧ s = s' := by
  have hany : ∀ c : Contract, (msg.delegate.any fun delegate => decide (delegate ≠ c.delegate)) =
      false ↔ ∀ delegate, msg.delegate = some delegate → delegate = c.delegate := by
    intro c
    cases msg.delegate <;> simp
  unfold closeContractValidate
  rw [failIf_bind_ok]
  constructor
  · rintro ⟨-, h⟩
    obtain ⟨c, _, hg, h⟩ := bind_ok.mp h
    obtain ⟨hc, rfl⟩ := getContract_ok.mp hg
    rw [failIf_bind_ok, ofOption_bind_ok] at h
    obtain ⟨hne, addr, haddr, h⟩ := h
    obtain ⟨signer, _, hs, h⟩ := bind_ok.mp h
    obtain ⟨hsigner, rfl⟩ := mustGetSigner_ok.mp hs
    simp only [failIf_bind_ok, failIf_ok] at h
    obtain ⟨hsame, hopen, hdelegate, rfl⟩ := h
    have hsame : addr = signer := by simpa using hsame
    refine ⟨⟨c, ChainState.lookup_of_getD hc hne, ⟨addr, haddr, ?_⟩, ?_, (hany c).mp hdelegate⟩, rfl⟩
    · rw [hsame]
      exact hsigner
    · simpa [Contract.isExpired] using hopen
  · rintro ⟨⟨c, hc, ⟨addr, haddr, hsigner⟩, hopen, hdelegate⟩, rfl⟩
    have hne : c.isEmpty = false := by
      simp only [Contract.isOpen, Bool.and_eq_true, Bool.not_eq_true'] at hopen
      exact hopen.1.1
    refine ⟨rfl, bind_ok.mpr ⟨c, s, getContract_ok.mpr ⟨by rw [hc]; rfl, rfl⟩, ?_⟩⟩
    refine failIf_bind_ok.mpr ⟨hne, ofOption_bind_ok.mpr ⟨addr, haddr, ?_⟩⟩
    refine bind_ok.mpr ⟨addr, s, mustGetSigner_ok.mpr ⟨hsigner, rfl⟩, ?_⟩
    refine failIf_bind_ok.mpr ⟨by simp, failIf_bind_ok.mpr ⟨?_, failIf_ok.mpr ⟨?_, rfl⟩⟩⟩
    · simp [Contract.isExpired, hopen]
    · exact (hany c).mpr hdelegate

/-! ## What a close does -/

/-- An open contract is listed for a height that does not wrap around. -/
theorem Contract.Wf.relist_pos (hw : c.Wf cr) (hopen : c.isOpen ctx.blockHeight = true)
    (hp : c.isPayAsYouGo = true) : 0 < ctx.blockHeight + c.settlementDuration := by
  have hheight := (hw.isOpen_iff.mp hopen).1
  have hfits := hw.end_fits (by simpa [isPayAsYouGo] using hp)
  have hdur := hw.settlementDuration_nonneg
  have hpos := ctx.pos
  unfold endHeight at hheight
  rw [Int64.lt_iff_toInt_lt, toInt_add_of_fits (by omega) (by omega), Int64.toInt_zero]
  omega

theorem relist_accepts (hs : s.SetHeights)
    (hpos : c.isPayAsYouGo = true → 0 < ctx.blockHeight + c.settlementDuration) :
    relist ctx c s = .ok () (s.relisted ctx c) := by
  unfold relist ChainState.relisted
  split
  · rename_i hp
    refine bind_ok.mpr ⟨(), s.unlist c.expiration, removeContractExpirationSet_ok.mpr rfl, ?_⟩
    refine bind_ok.mpr ⟨_, _, getContractExpirationSet_ok.mpr ⟨rfl, rfl⟩, ?_⟩
    exact (appendExpirationSet_ok (hs.unlist c.expiration)).mpr ⟨hpos hp, rfl⟩
  · rfl

/-- **A close, inverted and built.** -/
theorem closeContract_iff (hi : Inv cr ctx s) : closeContract cr ctx msg s = .ok u s' ↔
    ∃ c, s.contracts.lookup msg.contractId = some c ∧ c.Closable cr ctx msg ∧
      s.closed cr ctx c = s' := by
  constructor
  · intro h
    obtain ⟨c, _, hc, -, hopen, hby, hun, -, rfl, rfl⟩ := closeContract_ok hi h
    obtain ⟨_, _, hv, -⟩ := bind_ok.mp h
    obtain ⟨⟨c', hc', -, -, hdelegate⟩, -⟩ := closeContractValidate_iff.mp hv
    obtain rfl := Option.some.inj (hc.symm.trans hc')
    exact ⟨c, hc, ⟨hby, hopen, hdelegate, hun⟩, rfl⟩
  · rintro ⟨c, hc, h, rfl⟩
    have hst := hi.stored _ c hc
    have hlook : (s.relisted ctx c).contracts.lookup c.id = some c := by
      rw [ChainState.relisted_contracts, hst.id_eq]
      exact hc
    have hvalid : closeContractValidate cr ctx msg s = .ok () s :=
      closeContractValidate_iff.mpr ⟨⟨c, hc, h.closedBy, h.isOpen, h.delegate⟩, rfl⟩
    refine bind_ok.mpr ⟨(), s, hvalid, ?_⟩
    refine bind_ok.mpr ⟨c, s, getContract_ok.mpr ⟨by rw [hc]; rfl, rfl⟩, ?_⟩
    refine bind_ok.mpr ⟨(), _, relist_accepts hi.setHeights (hst.wf.relist_pos h.isOpen), ?_⟩
    have hsettle : settleContract cr ctx c 0 c.isSubscription (s.relisted ctx c) =
        .ok (c.settled ctx c.isSubscription)
          ((s.relisted ctx c).settle cr ctx c c.isSubscription) := by
      have hfits : (c.raiseNonce 0).DueFits ctx := by
        rw [hst.wf.raiseNonce_zero]
        exact hst.dueFits
      have hok := ((hi.relisted c).settleContract_ok hlook).mpr ⟨⟨hfits, h.unsettled⟩, rfl, rfl⟩
      rwa [hst.wf.raiseNonce_zero] at hok
    exact bind_ok.mpr ⟨_, _, hsettle, emit_ok.mpr rfl⟩

theorem deliver_close_iff (hi : Inv cr ctx s) : deliver cr ctx (.closeContract msg) s = some s' ↔
    msg.Signed cr ∧ ∃ c, s.contracts.lookup msg.contractId = some c ∧ c.Closable cr ctx msg ∧
      s.closed cr ctx c = s' := by
  unfold deliver
  rw [committed_some]
  constructor
  · rintro ⟨u, h⟩
    obtain ⟨_, _, hv, hh⟩ := bind_ok.mp h
    obtain ⟨hsigned, rfl⟩ := MsgCloseContract.validateBasic_iff.mp hv
    exact ⟨hsigned, (closeContract_iff hi).mp hh⟩
  · rintro ⟨hsigned, h⟩
    exact ⟨(), bind_ok.mpr ⟨(), s, MsgCloseContract.validateBasic_iff.mpr ⟨hsigned, rfl⟩,
      (closeContract_iff hi).mpr h⟩⟩

/-- **When a close is accepted.**  In every reachable store: the message is signed with the key
it names, the signer is the client of the contract, the contract is open, the delegate, where one
is named, is the contract's, and a subscription was not settled in this block. -/
theorem close_accepted_iff (hg : Genesis w) {actions : List Action}
    (h : Runs.run (step cr) w actions = some w') :
    deliver cr w'.ctx (.closeContract msg) w'.chain = some s' ↔
      msg.Signed cr ∧ ∃ c, w'.chain.contracts.lookup msg.contractId = some c ∧
        c.Closable cr w'.ctx msg ∧ w'.chain.closed cr w'.ctx c = s' :=
  deliver_close_iff (reachable_inv hg h)

/-! ## What the client gets -/

/-- The postings of a transfer: a coin that is zero is not sent. -/
def Posting.moved (posting : Posting) : List Posting :=
  if posting.coin.amount = 0 then [] else [posting]

theorem ChainState.sent_moved (s : ChainState) (src dst : Account) (coin : Coin) (p : Purpose) :
    (s.sent src dst coin p).journal = s.journal ++ Posting.moved ⟨src, dst, coin, p⟩ :=
  sent_journal ..

/-- What the end of a contract moves. -/
def Contract.finalPostings (cr : Crypto) (ctx : Context) (c : Contract) : List Posting :=
  let debt := c.debt ctx
  Posting.moved ⟨.module .contract, cr.account c.provider,
      ⟨c.rate.denom, debt - reserveShare debt⟩, .income c.id⟩ ++
    Posting.moved ⟨.module .contract, .module .reserve, ⟨c.rate.denom, reserveShare debt⟩,
      .tax c.id⟩ ++
    Posting.moved ⟨.module .contract, cr.account c.client, ⟨c.rate.denom, c.remaining - debt⟩,
      .refund c.id⟩

theorem ChainState.settle_final_journal (cr : Crypto) (ctx : Context) (c : Contract)
    (s : ChainState) :
    (s.settle cr ctx c true).journal = s.journal ++ c.finalPostings cr ctx := by
  rw [settle_journal, payout, sent_moved, sent_moved, sent_moved, if_pos rfl,
    Contract.finalPostings]
  simp only [List.append_assoc]

/-- A finally settled contract has nothing left. -/
theorem Contract.settled_final_remaining (ctx : Context) (c : Contract) :
    (c.settled ctx true).remaining = 0 := by
  rw [settled_remaining, if_pos rfl]
  omega

/-- **A subscription can be left at any time.**  In every reachable store, whatever has become
of the provider and of the service, a client closes an open subscription with one message.  The
provider and the reserve are paid for the blocks that have passed, the rest of the deposit goes
back to the client, nothing remains, and the record says that the contract is settled. -/
theorem subscription_refunded (hg : Genesis w) {actions : List Action}
    (h : Runs.run (step cr) w actions = some w')
    (hc : w'.chain.contracts.lookup msg.contractId = some c) (hsub : c.isSubscription = true)
    (hopen : c.isOpen w'.ctx.blockHeight = true) (hun : c.settlementHeight = 0)
    (hsigned : msg.Signed cr) (hby : c.ClosedBy cr msg) (hdelegate : msg.delegate = none) :
    ∃ w'' c', step cr w' (.msg (.closeContract msg)) = some w'' ∧
      w''.accepted = w'.accepted ++ [.closeContract msg] ∧
      w''.chain.journal = w'.chain.journal ++ c.finalPostings cr w'.ctx ∧
      w''.chain.contracts.lookup msg.contractId = some c' ∧ c'.remaining = 0 ∧
      c'.paid = max c.paid (min (c.due w'.ctx) c.deposit) ∧
      c'.settlementHeight = w'.ctx.blockHeight := by
  have hi := reachable_inv hg h
  have hst := hi.stored _ c hc
  have hclosable : c.Closable cr w'.ctx msg :=
    ⟨hby, hopen, by rw [hdelegate]; nofun, fun _ => hun⟩
  have hdel := (deliver_close_iff hi).mpr ⟨hsigned, c, hc, hclosable, rfl⟩
  have hrel : w'.chain.relisted w'.ctx c = w'.chain := by
    have hpayg : c.isPayAsYouGo = false := by
      simp only [Contract.isSubscription, decide_eq_true_eq] at hsub
      simp [Contract.isPayAsYouGo, hsub]
    rw [ChainState.relisted, if_neg (by simp [hpayg])]
  refine ⟨{ w' with
    chain := w'.chain.closed cr w'.ctx c
    accepted := w'.accepted ++ [.closeContract msg] }, c.settled w'.ctx true, ?_, rfl, ?_, ?_, ?_, ?_,
    rfl⟩
  · simp only [step, hdel]
  · simp only [ChainState.closed, hrel, hsub]
    exact ChainState.settle_final_journal ..
  · simp only [ChainState.closed, hrel, hsub]
    rw [ChainState.settle_lookup, if_pos hst.id_eq.symm]
  · exact Contract.settled_final_remaining ..
  · exact Contract.paid_add_debt hst.wf.paid_le

namespace Sample

/-- The client leaves its subscription. -/
def leave : MsgCloseContract where
  creator := client.account
  contractId := 1
  client := some client.pubKey
  delegate := none

theorem leave_signed : leave.Signed crypto :=
  ⟨by decide, by decide, client.pubKey, client.addr, rfl, by decide +kernel, by decide +kernel⟩

theorem leave_closedBy : (freshContract .subscription 10 1).ClosedBy crypto leave :=
  ⟨client.addr, by decide +kernel, by decide +kernel⟩

end Sample

/-- In its first block the subscription is closed, and all of the deposit goes back. -/
theorem subscription_refunded_at_once : ∃ w w' c,
    Runs.run (step Sample.crypto) Sample.genesis (Sample.setup ++ Sample.openings) = some w ∧
    step Sample.crypto w (.msg (.closeContract Sample.leave)) = some w' ∧
    w'.chain.contracts.lookup 1 = some c ∧ c.remaining = 0 ∧ c.paid = 0 ∧
    w'.chain.journal = w.chain.journal ++
      [⟨.module .contract, .user Sample.client.addr, ⟨denom, 10⟩, .refund 1⟩] := by
  have hstored : Sample.contracted.chain.contracts.lookup Sample.leave.contractId =
      some (Sample.freshContract .subscription 10 1) := rfl
  obtain ⟨w', c, hw', -, hj, hc, hrem, hpaid, -⟩ := subscription_refunded Sample.genesis_ok
    Sample.openings_run hstored rfl (by decide) rfl Sample.leave_signed Sample.leave_closedBy rfl
  have hpostings : (Sample.freshContract .subscription 10 1).finalPostings Sample.crypto
      Sample.contracted.ctx =
        [⟨.module .contract, .user Sample.client.addr, ⟨denom, 10⟩, .refund 1⟩] := by
    decide +kernel
  rw [hpostings] at hj
  exact ⟨_, w', c, Sample.openings_run, hw', hc, hrem, hpaid.trans (by decide), hj⟩

/-- The close of the subscription is accepted. -/
theorem close_accepted_at_once : ∃ w s,
    Runs.run (step Sample.crypto) Sample.genesis (Sample.setup ++ Sample.openings) = some w ∧
    deliver Sample.crypto w.ctx (.closeContract Sample.leave) w.chain = some s := by
  refine ⟨_, _, Sample.openings_run, (close_accepted_iff Sample.genesis_ok Sample.openings_run).mpr
    ⟨Sample.leave_signed, Sample.freshContract .subscription 10 1, rfl, ?_, rfl⟩⟩
  exact ⟨Sample.leave_closedBy, by decide, nofun, fun _ => rfl⟩

end Arkeo
