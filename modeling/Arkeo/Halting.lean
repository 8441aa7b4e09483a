import Arkeo.BondSolvency

/-! # What can halt the chain

A panic in a message only fails the transaction; a panic in the end blocker halts
the chain.  The arithmetic of the end blocker cannot panic: in a reachable store the
heights of a contract do not wrap around, its products and debts fit into 256 bits
and are not negative (`Contract.SafeIn`), and the sums of the checks are at most what
the modules hold.  What is left is the check of the supply (`Inv.endBlock_eq`).
-/
namespace Arkeo
open Exec

variable {cr : Crypto} {ctx : Context} {s s' : ChainState} {w w' : World} {c : Contract}

theorem bind_of_ok {ε σ α β : Type} {x : EStateM ε σ α} {f : α → EStateM ε σ β} {s t : σ} {a : α}
    (h : x s = .ok a t) : (x >>= f) s = f a t := by
  show EStateM.bind x f s = _
  unfold EStateM.bind
  rw [h]

/-- The heights computed from a record are the sums and differences they stand for. -/
structure Contract.HeightsFit (ctx : Context) (c : Contract) : Prop where
  expiration : c.expiration.toInt = c.height.toInt + c.duration.toInt
  settlementPeriodEnd : c.settlementPeriodEnd.toInt =
    c.height.toInt + c.duration.toInt + if c.isPayAsYouGo then c.settlementDuration.toInt else 0
  elapsed : ((if ctx.blockHeight > c.settlementPeriodEnd then c.settlementPeriodEnd
      else ctx.blockHeight) - c.height).toInt =
    min ctx.blockHeight.toInt c.settlementPeriodEnd.toInt - c.height.toInt

/-- The settlement of a contract in the end blocker meets no overflow, no negative
amount and no height that wraps around, and does not panic. -/
structure Contract.SafeIn (cr : Crypto) (ctx : Context) (s : ChainState) (c : Contract) : Prop where
  heights : c.HeightsFit ctx
  debt : ∃ d, contractDebt ctx c s = .ok d s ∧ 0 ≤ d ∧ 0 ≤ reserveShare d ∧ 0 ≤ d - reserveShare d ∧
    c.paid + d ≤ c.deposit ∧ c.deposit < 2 ^ 256
  settles : ∀ t, settleContract cr ctx c 0 true s ≠ .error .panic t

theorem Stored.heightsFit {next k : ℕ} (h : Stored cr ctx next k c) : c.HeightsFit ctx where
  expiration := h.wf.expiration_toInt
  settlementPeriodEnd := h.wf.settlementPeriodEnd_toInt
  elapsed := by
    have hheight := h.height_le
    have hpos := h.wf.height_pos
    have hlt := h.wf.height_lt_expiration
    have hle := h.wf.expiration_le_settlementPeriodEnd
    have hb := ctx.blockHeight.toInt_lt
    have he := c.settlementPeriodEnd.toInt_lt
    split
    · rename_i hlate
      rw [gt_iff_lt, Int64.lt_iff_toInt_lt] at hlate
      rw [toInt_sub_of_fits] <;> omega
    · rename_i hlate
      rw [gt_iff_lt, Int64.lt_iff_toInt_lt] at hlate
      rw [toInt_sub_of_fits] <;> omega

/-- The reserve takes no more than the whole debt. -/
theorem reserveShare_le {n : ℤ} (hn : 0 ≤ n) : reserveShare n ≤ n := by
  obtain ⟨h0, hle⟩ := reserveShare_bounds hn
  omega

theorem Inv.safeIn (hi : Inv cr ctx s) {k : ℕ} (hc : s.contracts.lookup k = some c) :
    c.SafeIn cr ctx s := by
  have hst := hi.stored k c hc
  have hw := hst.wf
  have hc' : s.contracts.lookup c.id = some c := by rw [hst.id_eq]; exact hc
  have hdue := hw.due_nonneg hst.height_le
  have hdebt : contractDebt ctx c s = .ok (c.debt ctx) s :=
    (contractDebt_ok hw.paid_nonneg hw.paid_le hw.deposit_fits hdue).mpr ⟨hst.dueFits, rfl, rfl⟩
  have h0 := Contract.debt_nonneg ctx hw.paid_le
  have hle := Contract.debt_le ctx hw.paid_le
  have hshare := reserveShare_le h0
  refine ⟨hst.heightsFit, ⟨c.debt ctx, hdebt, h0, (reserveShare_bounds h0).1, by omega, ?_,
    hw.deposit_fits⟩, ?_⟩
  · unfold Contract.remaining at hle
    omega
  · intro t ht
    by_cases hs : c.settlementHeight = 0
    · rw [hi.settleContract_of_unsettled hc' hs] at ht
      cases ht
    · rw [hi.settleContract_of_settled hc' hs] at ht
      cases ht

/-- **The end of a block, with all its failures**: only the check of the supply can
fail. -/
theorem Inv.endBlock_eq (hi : Inv cr ctx s) (hb : 0 ≤ s.bondSurplus) : endBlock cr ctx s =
    if (fetchConfig .maxSupply).toInt < (s.expireAll cr ctx (s.listedAt ctx.blockHeight)).bank.supply denom
    then .error .panic (s.expireAll cr ctx (s.listedAt ctx.blockHeight))
    else .ok () (s.expireAll cr ctx (s.listedAt ctx.blockHeight)) := by
  have hloop : logged (contractEndBlock cr ctx) s =
      .ok () (s.expireAll cr ctx (s.listedAt ctx.blockHeight)) :=
    logged_ok.mpr (.inl (contractEndBlock_eq hi))
  have hi' := hi.expireAll (s.listedAt ctx.blockHeight)
  have hb' := (BondFrame.expireAll hi (s.listedAt ctx.blockHeight)).surplus
  generalize s.expireAll cr ctx (s.listedAt ctx.blockHeight) = t at *
  have hbond : orPanic invariantBondModule t = .ok () t := by
    unfold orPanic
    rw [invariantBondModule_ok (hb'.symm ▸ hb)]
  have hcontract : orPanic (invariantContractModule ctx) t = .ok () t := by
    unfold orPanic
    rw [invariantContractModule_ok hi']
  have hrest : endBlock cr ctx s = orPanic invariantMaxSupply t := by
    unfold endBlock
    rw [bind_of_ok hloop, bind_of_ok hbond, bind_of_ok hcontract]
  rw [hrest]
  unfold orPanic invariantMaxSupply
  rw [reading_bind]
  unfold failIf
  by_cases hsupply : (fetchConfig .maxSupply).toInt < t.bank.supply denom
  · rw [if_pos hsupply, decide_eq_true hsupply]
    rfl
  · rw [if_neg hsupply, decide_eq_false hsupply]
    rfl

/-- **The arithmetic of the end blocker cannot halt the chain.**  In every reachable
state, every store that the loop of the end blocker passes through has only contracts
whose settlement is safe, the loop succeeds, the checks of the bonds and of the
contracts pass after it, with a sum of the bonds that fits, and the end of the block
panics exactly if the supply is above the maximum. -/
theorem endBlock_safe (hg : Genesis w) {actions : List Action}
    (hrun : Runs.run (step cr) w actions = some w') :
    (∀ ids, ids <+: w'.chain.listedAt w'.ctx.blockHeight → ∃ s,
      forEach (settleExpired cr w'.ctx) ids w'.chain = .ok () s ∧
      ∀ k c, s.contracts.lookup k = some c → c.SafeIn cr w'.ctx s) ∧
    ∃ s, contractEndBlock cr w'.ctx w'.chain = .ok () s ∧
      (∀ k c, s.contracts.lookup k = some c → c.HeightsFit w'.ctx) ∧
      (∀ key p, s.providers.lookup key = some p → 0 < p.bond) ∧ s.bondSum < 2 ^ 256 ∧
      invariantBondModule s = .ok () s ∧ invariantContractModule w'.ctx s = .ok () s ∧
      endBlock cr w'.ctx w'.chain =
        if (fetchConfig .maxSupply).toInt < s.bank.supply denom then .error .panic s else .ok () s := by
  have hi := reachable_inv hg hrun
  have hb := (reachable_bonded hg hrun).1
  have hi' := hi.expireAll (w'.chain.listedAt w'.ctx.blockHeight)
  have hf := BondFrame.expireAll hi (w'.chain.listedAt w'.ctx.blockHeight)
  have hback : 0 ≤ (w'.chain.expireAll cr w'.ctx (w'.chain.listedAt w'.ctx.blockHeight)).bondSurplus := by
    rw [hf.surplus]
    exact hb.backed
  refine ⟨?_, _, contractEndBlock_eq hi, ?_, ?_, ?_, invariantBondModule_ok hback,
    invariantContractModule_ok hi', hi.endBlock_eq hb.backed⟩
  · intro ids _
    exact ⟨_, forEach_settleExpired hi ids, fun k c hc => (hi.expireAll ids).safeIn hc⟩
  · intro k c hc
    exact (hi'.stored k c hc).heightsFit
  · intro key p hp
    rw [hf.providers] at hp
    exact (hb.stored key p hp).positive
  · have hfits := hi'.balance_fits (.module .provider) denom
    unfold ChainState.bondSurplus at hback
    omega

/-- The last block of two contracts' lives ends without a panic of the arithmetic. -/
theorem endBlock_safe_at_lifetimes : ∃ w s,
    Runs.run (step Sample.crypto) Sample.genesis Sample.lifetimes = some w ∧
    contractEndBlock Sample.crypto w.ctx w.chain = .ok () s ∧
    invariantContractModule w.ctx s = .ok () s := by
  obtain ⟨w, -, -, hw, -⟩ := Sample.lifetimes_run
  obtain ⟨-, s, hs, -, -, -, -, hcontract, -⟩ := endBlock_safe Sample.genesis_ok hw
  exact ⟨w, s, hw, hs, hcontract⟩

end Arkeo
