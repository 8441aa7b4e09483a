import Arkeo.Genesis
import Arkeo.Runs

/-! # The parameters of the emission

The reward of a block is computed from `BlockPerYear` and `EmissionCurve`.  They are
set at the genesis and by an upgrade, through a subspace that stores what
`ParamSetPairs` lists.  It lists nothing, and `GetParams` does not ask the subspace:
the reward is always that of `NewParams`, whatever was set
(`beginBlockReward_eq`).
-/
namespace Arkeo
open LegacyDec

/-! ## The code -/

/-- `configs.ValidatorPayoutCycle`, of every version. -/
def validatorPayoutCycle : Int64 := 1

/-- `Params.ParamSetPairs`: the keys of the parameters in the subspace, with their
values. -/
def Params.paramSetPairs (_ : Params) : List (String × ℕ) := []

/-- What the module keeps about its parameters. -/
structure ParamsStore where
  /-- The subspace of the module. -/
  paramstore : AList (fun _ : String => ℕ) := ∅
  /-- The mark under `UpdateParamsEmissionKey`. -/
  emissionCurveDone : Bool := false

/-- `Subspace.SetParamSet`: the pairs are written one after the other. -/
def ParamsStore.setParams (p : Params) (s : ParamsStore) : ParamsStore :=
  { s with paramstore := p.paramSetPairs.foldl (fun m pair => m.insert pair.1 pair.2) s.paramstore }

def ParamsStore.getParams (_ : ParamsStore) : Params := newParams

/-- `UpgradeEmissionCurve`: whether it was updated, and the parameters it has set. -/
def ParamsStore.upgradeEmissionCurve (newValue : ℕ) (s : ParamsStore) :
    Option Params × ParamsStore :=
  if s.emissionCurveDone then (none, s)
  else
    let params := { s.getParams with emissionCurve := newValue }
    (some params, { s.setParams params with emissionCurveDone := true })

/-- `calcBlockReward`: the amount, `none` where a decimal or the coin panics. -/
def calcBlockReward (height : Int64) (totalReserve emissionCurve blocksPerYear
    validatorPayoutCycle : ℤ) : Option ℤ :=
  if emissionCurve = 0 ∨ blocksPerYear = 0 then some 0
  else if validatorPayoutCycle = 0 ∨ height % Int64.ofInt (roundInt validatorPayoutCycle) ≠ 0 then
    some 0
  else do
    let bpyD ← quo blocksPerYear validatorPayoutCycle
    let perCurve ← quo totalReserve emissionCurve
    let perBlock ← quo perCurve bpyD
    if roundInt perBlock < 0 then none else some (roundInt perBlock)

/-- The reward for given parameters, which are cast to `int64`. -/
def Params.blockReward (p : Params) (height : Int64) (reserveSupply : ℤ) : Option ℤ :=
  calcBlockReward height (ofInt reserveSupply) (ofInt (Int64.ofNat p.emissionCurve).toInt)
    (ofInt (Int64.ofNat p.blockPerYear).toInt) (ofInt validatorPayoutCycle.toInt)

/-- The reward that `BeginBlock` computes. -/
def ParamsStore.beginBlockReward (s : ParamsStore) (height : Int64) (reserveSupply : ℤ) :
    Option ℤ :=
  s.getParams.blockReward height reserveSupply

/-! ## Runs -/

/-- The store, and the parameters that were set last; no function reads those. -/
structure ParamsWorld where
  store : ParamsStore := {}
  lastSet : Option Params := none

inductive ParamsEvent where
  | initGenesis (params : Params)
  | upgradeEmissionCurve (newValue : ℕ)
  | beginBlock (height : Int64) (reserveSupply : ℤ)
  deriving DecidableEq, Repr

/-- A genesis that is not valid does not start a chain, and a block whose reward panics
halts it. -/
def paramsStep (w : ParamsWorld) : ParamsEvent → Option ParamsWorld
  | .initGenesis params =>
      match params.validate with
      | .ok _ => some { store := w.store.setParams params, lastSet := some params }
      | .error _ => none
  | .upgradeEmissionCurve newValue =>
      let (params, store) := w.store.upgradeEmissionCurve newValue
      some { store := store, lastSet := params.orElse fun _ => w.lastSet }
  | .beginBlock height reserveSupply =>
      (w.store.beginBlockReward height reserveSupply).map fun _ => w

/-- The reward of every block is that of the parameters set last. -/
def ParamsWorld.InEffect (w : ParamsWorld) : Prop :=
  ∀ p, w.lastSet = some p → ∀ height reserveSupply,
    w.store.beginBlockReward height reserveSupply = p.blockReward height reserveSupply

/-- The parameters that an event sets are those of `NewParams`. -/
def setsConstants (w : ParamsWorld) : ParamsEvent → Prop
  | .initGenesis params => params = newParams
  | .upgradeEmissionCurve newValue =>
      w.store.emissionCurveDone = false → newValue = newParams.emissionCurve
  | .beginBlock _ _ => True

instance (w : ParamsWorld) : (e : ParamsEvent) → Decidable (setsConstants w e)
  | .initGenesis params => inferInstanceAs (Decidable (params = newParams))
  | .upgradeEmissionCurve newValue => inferInstanceAs (Decidable (_ → newValue = _))
  | .beginBlock _ _ => isTrue trivial

/-- Whatever was set, the reward is that of the constants. -/
theorem beginBlockReward_eq (s : ParamsStore) (height : Int64) (reserveSupply : ℤ) :
    s.beginBlockReward height reserveSupply = newParams.blockReward height reserveSupply := rfl

theorem paramsStep_lastSet {w w' : ParamsWorld} {e : ParamsEvent}
    (hw : ∀ p, w.lastSet = some p → p = newParams) (he : setsConstants w e)
    (h : paramsStep w e = some w') : ∀ p, w'.lastSet = some p → p = newParams := by
  cases e with
  | initGenesis params =>
    simp only [paramsStep] at h
    split at h
    · cases h
      rintro p hp
      cases hp
      exact he
    · cases h
  | upgradeEmissionCurve newValue =>
    simp only [paramsStep, ParamsStore.upgradeEmissionCurve] at h
    split at h
    · cases h
      exact hw
    · rename_i hdone
      cases h
      rintro p hp
      cases hp
      rw [he (by simpa using hdone)]
      rfl
  | beginBlock height reserveSupply =>
    unfold paramsStep at h
    obtain ⟨_, -, rfl⟩ := Option.map_eq_some_iff.mp h
    exact hw

/-- **Where parameter changes take effect**: in the runs that only ever set the
constants. -/
theorem params_in_effect {events : List ParamsEvent} {w : ParamsWorld}
    (hg : Runs.Guarded paramsStep setsConstants {} events)
    (h : Runs.run paramsStep {} events = some w) : w.InEffect := by
  have hlast : ∀ p, w.lastSet = some p → p = newParams :=
    Runs.run_induct_of_guarded (P := fun w => ∀ p, w.lastSet = some p → p = newParams)
      (fun _ _ _ hw he hstep => paramsStep_lastSet hw he hstep) (by intro p hp; cases hp) hg h
  intro p hp height reserveSupply
  rw [hlast p hp, beginBlockReward_eq]

/-- An upgrade to the value that is there, and a second one to any value. -/
theorem params_in_effect_after_upgrades : ∃ w,
    Runs.run paramsStep {} [.initGenesis newParams, .upgradeEmissionCurve 10,
      .upgradeEmissionCurve 3] = some w ∧ w.lastSet = some newParams ∧ w.InEffect := by
  have hrun : Runs.run paramsStep {} [.initGenesis newParams, .upgradeEmissionCurve 10,
      .upgradeEmissionCurve 3] = some ⟨⟨∅, true⟩, some newParams⟩ := rfl
  exact ⟨_, hrun, rfl, params_in_effect (by decide) hrun⟩

/-- **A genesis without effect, and an upgrade without effect.**  With an emission curve of
1 the reserve would pay 1000 a block; it pays 100. -/
theorem params_not_in_effect :
    (∃ p w, Runs.run paramsStep {} [.initGenesis p] = some w ∧ w.lastSet = some p ∧
      w.store.beginBlockReward 1 6311520000 = some 100 ∧ p.blockReward 1 6311520000 = some 1000) ∧
    ∃ w, Runs.run paramsStep {} [.initGenesis newParams, .upgradeEmissionCurve 1] = some w ∧
      w.store.emissionCurveDone = true ∧ ¬w.InEffect := by
  refine ⟨⟨⟨6311520, 1⟩, _, rfl, rfl, by decide +kernel, by decide +kernel⟩, _, rfl, rfl, ?_⟩
  intro h
  exact absurd (h ⟨6311520, 1⟩ rfl 1 6311520000) (by decide +kernel)

end Arkeo
