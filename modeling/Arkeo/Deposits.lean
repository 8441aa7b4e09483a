import Arkeo.Reachable

/-! # Deposits of subscriptions

A subscription is paid for in advance: the deposit has to be the rate for every query of
every block.  The handler takes the product in 64 bits and compares it with the deposit, a
big integer.  The two agree as long as the product fits (`toInt_mul_eq_iff`); where it does
not, the deposit that is asked for is what is left of it after wrapping around.
-/
namespace Arkeo
open Exec

/-- A 64-bit product, as a number, is the product modulo 2^64. -/
theorem toInt_mul₃ (a b c : Int64) :
    (a * b * c).toInt = (a.toInt * b.toInt * c.toInt).bmod (2 ^ 64) := by
  rw [Int64.toInt_mul, Int64.toInt_mul, Int.bmod_mul_bmod]

/-- A product above zero is exact in 64 bits if and only if it is below 2^63. -/
theorem bmod_eq_self_iff {x : ℤ} (hx : 0 < x) : x.bmod (2 ^ 64) = x ↔ x < 2 ^ 63 := by
  constructor
  · intro h
    have hlt := Int.bmod_lt (x := x) (m := 2 ^ 64) (by decide)
    rw [h] at hlt
    omega
  · intro h
    exact Int.bmod_eq_of_le (by omega) (by omega)

variable {cr : Crypto} {ctx : Context} {s s' t t' : ChainState} {u u' : Unit}

/-- What a subscription costs: the rate for every query of every block. -/
def MsgOpenContract.price (msg : MsgOpenContract) : ℤ :=
  msg.rate.amount * msg.duration.toInt * msg.queriesPerMinute.toInt

/-- What `matchTerms` has compared the deposit of a subscription with. -/
theorem matchTerms_deposit {provider : Provider} {msg : MsgOpenContract}
    (hsub : msg.contractType = .subscription) (hpos : 0 < msg.rate.amount)
    (h : matchTerms provider msg s = .ok u s') : msg.deposit = msg.price.bmod (2 ^ 64) := by
  unfold matchTerms at h
  rw [hsub] at h
  obtain ⟨_, _, -, h⟩ := bind_ok.mp h
  obtain ⟨amount, _, hx, h⟩ := bind_ok.mp h
  obtain ⟨⟨-, hlt⟩, rfl, -⟩ := toInt64_ok.mp hx
  obtain ⟨hdep, -⟩ := failIf_ok.mp h
  have hamount : (Int64.ofInt msg.rate.amount).toInt = msg.rate.amount :=
    Int64.toInt_ofInt_of_le (by omega) (by omega)
  have heq : (Int64.ofInt msg.rate.amount * msg.duration * msg.queriesPerMinute).toInt =
      msg.deposit := by simpa using hdep
  rw [← heq, toInt_mul₃, hamount, MsgOpenContract.price]

/-- The handler's checks of a subscription include the one of its deposit. -/
theorem openContractValidate_deposit {msg : MsgOpenContract}
    (hsub : msg.contractType = .subscription) (hpos : 0 < msg.rate.amount)
    (h : openContractValidate cr ctx msg s = .ok u s') : msg.deposit = msg.price.bmod (2 ^ 64) := by
  unfold openContractValidate at h
  rw [failIf_bind_ok] at h
  obtain ⟨_, _, -, h⟩ := bind_ok.mp h.2
  rw [ofOption_bind_ok] at h
  obtain ⟨_, -, h⟩ := h
  obtain ⟨_, _, -, h⟩ := bind_ok.mp h
  simp only [failIf_bind_ok] at h
  obtain ⟨-, -, -, -, -, h⟩ := h
  obtain ⟨_, _, hterms, -⟩ := bind_ok.mp h
  exact matchTerms_deposit hsub hpos hterms

/-- **The deposit is the price exactly when the price fits in 64 bits**, for a message that
passes both checks in whatever state. -/
theorem subscription_deposit_iff {msg : MsgOpenContract} (hsub : msg.contractType = .subscription)
    (hbasic : msg.validateBasic cr s = .ok u s')
    (hvalid : openContractValidate cr ctx msg t = .ok u' t') :
    msg.deposit = msg.price ↔ msg.price < 2 ^ 63 := by
  obtain ⟨-, hdur, -, hqpm, hrate, -⟩ := MsgOpenContract.validateBasic_ok hbasic
  have hprice : 0 < msg.price := Int.mul_pos (Int.mul_pos hrate hdur) hqpm
  rw [openContractValidate_deposit hsub hrate hvalid]
  exact bmod_eq_self_iff hprice

namespace Sample

/-- A subscription for 5534023222112865485 queries a minute: at ten a query its price is
3 * 2^64 + 2. -/
def cheap : MsgOpenContract :=
  { openMsg .subscription 2 with queriesPerMinute := 5534023222112865485 }

/-- The checks of a message in the state after `setup`. -/
def checks (msg : MsgOpenContract) (w : World) : Bool :=
  (committed (msg.validateBasic crypto) w.chain).isSome &&
    (committed (openContractValidate crypto w.ctx msg) w.chain).isSome

theorem checks_ok {msg : MsgOpenContract} {w : World} (h : checks msg w = true) :
    (∃ u s, msg.validateBasic crypto w.chain = .ok u s) ∧
      ∃ u s, openContractValidate crypto w.ctx msg w.chain = .ok u s := by
  obtain ⟨hb, hv⟩ := Bool.and_eq_true_iff.mp h
  obtain ⟨s, hb⟩ := Option.isSome_iff_exists.mp hb
  obtain ⟨t, hv⟩ := Option.isSome_iff_exists.mp hv
  obtain ⟨u, hb⟩ := committed_some.mp hb
  obtain ⟨u', hv⟩ := committed_some.mp hv
  exact ⟨⟨u, s, hb⟩, u', t, hv⟩

/-- Two subscriptions pass the checks: one at its price, and one for next to nothing. -/
theorem checked_subscriptions : ∃ w, Runs.run (step crypto) genesis setup = some w ∧
    checks (openMsg .subscription 10) w = true ∧ checks cheap w = true := by
  have h : ((Runs.run (step crypto) genesis setup).map fun w =>
      (checks (openMsg .subscription 10) w, checks cheap w)) = some (true, true) := by
    rw [setup_run]
    decide +kernel
  obtain ⟨w, hw, h⟩ := Option.map_eq_some_iff.mp h
  obtain ⟨hten, hcheap⟩ := Prod.mk.inj h
  exact ⟨w, hw, hten, hcheap⟩

end Sample

/-- The subscription of one query a minute. -/
theorem small_subscription_exact : ∃ w,
    Runs.run (step Sample.crypto) Sample.genesis Sample.setup = some w ∧
    Sample.checks (Sample.openMsg .subscription 10) w = true ∧
    (Sample.openMsg .subscription 10).deposit = (Sample.openMsg .subscription 10).price := by
  obtain ⟨w, hw, hchecks, -⟩ := Sample.checked_subscriptions
  obtain ⟨⟨u, s, hb⟩, u', t, hv⟩ := Sample.checks_ok hchecks
  exact ⟨w, hw, hchecks, (subscription_deposit_iff rfl hb hv).mpr (by decide +kernel)⟩

/-- **A subscription for next to nothing.**  Its deposit is 2, and it passes both checks. -/
theorem subscription_underpaid : Genesis Sample.genesis ∧ ∃ w u s u' s',
    Runs.run (step Sample.crypto) Sample.genesis Sample.setup = some w ∧
    Sample.cheap.validateBasic Sample.crypto w.chain = .ok u s ∧
    openContractValidate Sample.crypto w.ctx Sample.cheap w.chain = .ok u' s' ∧
    Sample.cheap.contractType = .subscription ∧ Sample.cheap.deposit = 2 ∧
    Sample.cheap.price = 3 * 2 ^ 64 + 2 := by
  obtain ⟨w, hw, -, hchecks⟩ := Sample.checked_subscriptions
  obtain ⟨⟨u, s, hb⟩, u', t, hv⟩ := Sample.checks_ok hchecks
  exact ⟨Sample.genesis_ok, w, u, s, u', t, hw, hb, hv, rfl, rfl, by decide +kernel⟩

end Arkeo
