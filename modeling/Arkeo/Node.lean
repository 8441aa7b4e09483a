import Arkeo.Blocks
import Arkeo.Debits

/-! # Whole blocks

The module as the chain runs it (`Node`): messages, the versions that validators announce, the
upgrade of the emission curve, the starts of blocks with their payouts, and the ends of blocks.

What the messages alone keep is kept (`Node.Sound`), so no block halts the chain as long as the
validators agree on a version that is supported and the numbers of the staking module fit
(`node_runs_on`).  What a block pays is known to the coin (`block_pays`), and while only
validators that are counted are paid the reserve is not used up (`reserve_remains`).  A step of
the node is one of the module, with the bank that the payout leaves, so what whole blocks reach
is exported and restored (`node_roundTrips`).
-/
namespace Runs

variable {σ α : Type} {step : σ → α → Option σ}

/-- **The progress rule.**  If every step that meets the guard is taken and keeps the invariant,
every run whose steps meet the guard is taken to its end. -/
theorem run_progress {G : σ → α → Prop} {P : σ → Prop}
    (hstep : ∀ s a, P s → G s a → ∃ s', step s a = some s' ∧ P s') {s : σ} {l : List α} (hs : P s)
    (hg : Guarded step G s l) : ∃ s', run step s l = some s' ∧ P s' := by
  induction l generalizing s with
  | nil => exact ⟨s, rfl, hs⟩
  | cons a l ih =>
    obtain ⟨t, ht, hp⟩ := hstep s a hs hg.1
    obtain ⟨s', hs', hp'⟩ := ih hp (hg.2 t ht)
    exact ⟨s', run_cons.mpr ⟨t, ht, hs'⟩, hp'⟩

end Runs

namespace Arkeo
open Exec LegacyDec

/-- The chain with the parameters of the module. -/
structure Node where
  app : App
  params : ParamsStore := {}

inductive NodeAction where
  | chain (act : Action)
  | setVersion (msg : MsgSetVersion)
  | upgradeEmissionCurve (newValue : ℕ)
  | beginBlock (input : BlockInput)

section
variable (cr : Crypto) (codec : AddressCodec) (descriptions : String → String) (swVersion : Int64)
  (distribution : Bytes)

def Node.step (n : Node) : NodeAction → Option Node
  | .chain act => (Arkeo.step cr n.app.world act).map fun w =>
      { n with app := { n.app with world := w } }
  | .setVersion msg =>
      (versionStep codec swVersion n.app.versions (.setVersion msg)).map fun versions =>
        { n with app := { n.app with versions := versions } }
  | .upgradeEmissionCurve newValue =>
      some { n with params := (n.params.upgradeEmissionCurve newValue).2 }
  | .beginBlock input =>
      if input.entries.isPerm (staticServices descriptions) then
        (versionStep codec swVersion n.app.versions (.beginBlock input.validators)).bind
          fun versions =>
            (committed (beginBlock codec distribution n.app.world.ctx versions n.params input
              n.app.seeded) n.app.world.chain).map fun s =>
                { n with
                  app :=
                    { world := { n.app.world with chain := s }, versions := versions, seeded := true } }
      else none

end

variable {cr : Crypto} {codec : AddressCodec} {descriptions : String → String} {swVersion : Int64}
  {distribution : Bytes} {ctx : Context} {s s' : ChainState} {w w' : World} {a : Action}
  {n n' n₀ : Node} {act : NodeAction} {input : BlockInput} {c : Contract} {x : ℤ}

theorem step_beginBlock : n.step cr codec descriptions swVersion distribution (.beginBlock input) =
      some n' ↔
    input.entries.Perm (staticServices descriptions) ∧ ∃ versions s,
      versionStep codec swVersion n.app.versions (.beginBlock input.validators) = some versions ∧
      beginBlock codec distribution n.app.world.ctx versions n.params input n.app.seeded
        n.app.world.chain = .ok () s ∧
      { n with
        app :=
          { world := { n.app.world with chain := s }, versions := versions, seeded := true } } = n' := by
  simp only [Node.step]
  by_cases hperm : input.entries.isPerm (staticServices descriptions) = true
  · rw [if_pos hperm]
    simp only [List.isPerm_iff.mp hperm, true_and, Option.bind_eq_some_iff, Option.map_eq_some_iff,
      committed_some]
    constructor
    · rintro ⟨versions, hv, s, ⟨u, h⟩, rfl⟩
      exact ⟨versions, s, hv, h, rfl⟩
    · rintro ⟨versions, s, hv, h, rfl⟩
      exact ⟨versions, hv, s, ⟨(), h⟩, rfl⟩
  · rw [if_neg hperm]
    constructor
    · intro h
      cases h
    · rintro ⟨hp, -⟩
      exact absurd (List.isPerm_iff.mpr hp) hperm

/-! ## What every run keeps -/

/-- The store of a reachable node. -/
structure Node.Sound (cr : Crypto) (n : Node) : Prop where
  inv : Inv cr n.app.world.ctx n.app.world.chain
  bonded : Bonded cr n.app.world
  capped : n.app.world.chain.bank.supply denom ≤ (fetchConfig .maxSupply).toInt

theorem BlockFrame.inv (h : BlockFrame distribution s s') (hi : Inv cr ctx s) : Inv cr ctx s' := by
  refine hi.quiet h.contracts ?_ h.userSets h.nextContractId (h.nonneg hi.nonneg) h.supply ?_ ?_
  · intro t set ht
    rw [h.expirationSets] at ht
    exact hi.setHeights t set ht
  · intro d
    exact (h.others _ d (by simp)).ge
  · intro key p hp
    rw [h.providers] at hp
    exact hi.durations key p hp

theorem BlockFrame.bonded (h : BlockFrame distribution w.chain s') (hb : Bonded cr w) :
    Bonded cr { w with chain := s' } :=
  hb.of_quiet h.providers (h.others _ _ (by simp)).ge h.bondPostings

/-- The coins of the reserve fit. -/
theorem Inv.reserve_bounds (hi : Inv cr ctx s) : 0 ≤ s.balance (.module .reserve) denom ∧
    s.balance (.module .reserve) denom < 2 ^ 256 :=
  ⟨hi.nonneg _ _, hi.balance_fits _ _⟩

/-- **The start of a block, inverted.** -/
theorem Node.Sound.begun (h : n.Sound cr)
    (hstep : n.step cr codec descriptions swVersion distribution (.beginBlock input) = some n') :
    ∃ x m, (0 ≤ x ∧
        126230400 * x ≤ 2 * n.app.world.chain.balance (.module .reserve) denom + 63115200) ∧
      n.params.beginBlockReward n.app.world.ctx.blockHeight
        (n.app.world.chain.balance (.module .reserve) denom) = some x ∧
      validatorPayout codec input.validatorByConsAddr n'.app.versions input.votes (ofInt x) = some m ∧
      (n.app.world.chain.offers distribution m.sends).ensured input.entries n.app.seeded =
        n'.app.world.chain ∧
      BlockFrame distribution n.app.world.chain n'.app.world.chain ∧
      n'.app.world = { n.app.world with chain := n'.app.world.chain } := by
  obtain ⟨-, versions, s, -, hbegin, rfl⟩ := step_beginBlock.mp hstep
  obtain ⟨x, m, hx, hreward, hm, rfl⟩ :=
    (beginBlock_ok h.inv.reserve_bounds.1 h.inv.reserve_bounds.2).mp hbegin
  exact ⟨x, m, hx, hreward, hm, rfl, .begun hx.1 hm, rfl⟩

/-- **One step.** -/
theorem Node.Sound.step (h : n.Sound cr)
    (hstep : n.step cr codec descriptions swVersion distribution act = some n') :
    n'.Sound cr ∧ ∀ d, n'.app.world.chain.bank.supply d = n.app.world.chain.bank.supply d := by
  cases act with
  | chain a =>
    obtain ⟨w, hw, rfl⟩ := Option.map_eq_some_iff.mp hstep
    have ho := step_outcome h.inv hw
    have hsupply := ho.supply h.inv h.bonded
    exact ⟨⟨ho.inv h.inv, (h.bonded.step h.inv hw).1, by rw [hsupply]; exact h.capped⟩, hsupply⟩
  | setVersion msg =>
    obtain ⟨versions, -, rfl⟩ := Option.map_eq_some_iff.mp hstep
    exact ⟨⟨h.inv, h.bonded, h.capped⟩, fun _ => rfl⟩
  | upgradeEmissionCurve newValue =>
    obtain rfl := Option.some.inj hstep
    exact ⟨⟨h.inv, h.bonded, h.capped⟩, fun _ => rfl⟩
  | beginBlock input =>
    obtain ⟨_, _, -, -, -, -, hframe, hworld⟩ := h.begun hstep
    refine ⟨⟨?_, ?_, by rw [hframe.supply]; exact h.capped⟩, hframe.supply⟩
    · rw [hworld]
      exact hframe.inv h.inv
    · rw [hworld]
      exact hframe.bonded h.bonded

/-- The start: a chain without contracts and providers, and no more coins than there may be. -/
structure Node.Genesis (n : Node) : Prop where
  world : Arkeo.Genesis n.app.world
  capped : n.app.world.chain.bank.supply denom ≤ (fetchConfig .maxSupply).toInt

theorem Node.Genesis.sound (h : n.Genesis) : n.Sound cr := ⟨h.world.inv, h.world.bonded, h.capped⟩

theorem reachable_sound (hg : n₀.Genesis) {actions : List NodeAction}
    (hrun : Runs.run (Node.step cr codec descriptions swVersion distribution) n₀ actions = some n) :
    n.Sound cr :=
  Runs.run_induct (P := Node.Sound cr) (fun _ _ _ h hstep => (h.step hstep).1) hg.sound hrun

/-! ## The chain runs on -/

/-- What a block is given can be worked with: the version the validators agree on is
supported, their operators can be read, and the sums of their shares fit. -/
structure BlockInput.Ready (codec : AddressCodec) (descriptions : String → String)
    (swVersion : Int64) (versions : VersionStore) (input : BlockInput) : Prop where
  entries : input.entries.Perm (staticServices descriptions)
  supported : getComputedVersion codec swVersion input.validators versions ≤ swVersion
  readable : ∀ vote ∈ input.votes, vote.blockIdFlag.skipped = false → ∀ val,
    input.validatorByConsAddr vote.address = some val → ∃ addr, codec.valBytes val.operator = some addr
  shares_fit : countedShares input.validatorByConsAddr input.votes < 2 ^ maxDecBitLen
  votes_fit : input.votes.length < 2 ^ 63

/-- The step is one that the chain can be asked to take. -/
def NodeAction.Ready (codec : AddressCodec) (descriptions : String → String) (swVersion : Int64)
    (n : Node) : NodeAction → Prop
  | .chain .endBlock => n.app.world.ctx.next.isSome
  | .beginBlock input => input.Ready codec descriptions swVersion n.app.versions
  | _ => True

/-- The reward is less than the reserve, and fits into 63 bits. -/
theorem reward_small (h : n.Sound cr)
    (hle : 126230400 * x ≤ 2 * n.app.world.chain.balance (.module .reserve) denom + 63115200) :
    x < 2 ^ 63 := by
  have hbal := h.inv.nonneg.bal_le_supply (.module .reserve) denom
  have hcap := h.capped
  have hmax := (fetchConfig .maxSupply).toInt_lt
  unfold ChainState.balance at hle
  omega

/-- **A step that is ready is taken.** -/
theorem Node.Sound.progress (h : n.Sound cr) (hready : act.Ready codec descriptions swVersion n) :
    ∃ n', n.step cr codec descriptions swVersion distribution act = some n' := by
  cases act with
  | chain a =>
    cases hs : Arkeo.step cr n.app.world a with
    | some w => exact ⟨_, congrArg (Option.map _) hs⟩
    | none =>
      obtain rfl := step_eq_none hs
      obtain ⟨ctx', hctx⟩ := Option.isSome_iff_exists.mp hready
      have hend := h.inv.endBlock_eq h.bonded.backed
      rw [if_neg (by rw [ChainState.expireAll_supply h.inv]; exact not_lt.mpr h.capped)] at hend
      simp only [Arkeo.step, hend, hctx, Option.map_some] at hs
      cases hs
  | setVersion msg =>
    have hsome : ∃ versions, versionStep codec swVersion n.app.versions (.setVersion msg) =
        some versions := by
      cases hset : msgSetVersion codec msg n.app.versions with
      | ok versions => exact ⟨versions, by simp only [versionStep, hset]⟩
      | error e => exact ⟨n.app.versions, by simp only [versionStep, hset]⟩
    obtain ⟨versions, hv⟩ := hsome
    exact ⟨_, congrArg (Option.map _) hv⟩
  | upgradeEmissionCurve newValue => exact ⟨_, rfl⟩
  | beginBlock input =>
    obtain ⟨hr0, hrfit⟩ := h.inv.reserve_bounds
    obtain ⟨x, hx, h0, hle⟩ := beginBlockReward_ok n.params n.app.world.ctx.blockHeight hr0 hrfit
    have hsmall : ofInt x < 2 ^ 63 * precision :=
      Int.mul_lt_mul_of_pos_right (reward_small h hle) precision_pos
    have hversion : versionStep codec swVersion n.app.versions (.beginBlock input.validators) =
        some (n.app.versions.setVersion
          (getComputedVersion codec swVersion input.validators n.app.versions)) := by
      simp only [versionStep]
      exact if_neg (Int64.not_lt.mpr hready.supported)
    have hvotes : (input.votes.length : ℤ) * precision < 2 ^ maxDecBitLen := by
      have hlen : (input.votes.length : ℤ) < 2 ^ 63 := by exact_mod_cast hready.votes_fit
      have hprec : precision = 10 ^ 18 := rfl
      rw [hprec, maxDecBitLen]
      omega
    obtain ⟨m, hm⟩ := validatorPayout_some (Int.mul_nonneg h0 precision_pos.le) hsmall
      hready.shares_fit hready.readable hvotes
    exact ⟨_, step_beginBlock.mpr ⟨hready.entries, _, _, hversion,
      (beginBlock_ok hr0 hrfit).mpr ⟨x, m, ⟨h0, hle⟩, hx, hm, rfl⟩, rfl⟩⟩

/-- **The chain runs on.**  From every genesis, whatever messages come in whatever order, every
step is taken as long as the blocks are given what can be worked with: no start and no end of
a block halts the chain.  In the state that is reached no coin was made or lost, the contract
module holds what is owed for the contracts, and the provider module what is bonded. -/
theorem node_runs_on (hg : n₀.Genesis) {actions : List NodeAction}
    (hready : Runs.Guarded (Node.step cr codec descriptions swVersion distribution)
      (NodeAction.Ready codec descriptions swVersion) n₀ actions) :
    ∃ n, Runs.run (Node.step cr codec descriptions swVersion distribution) n₀ actions = some n ∧
      (∀ d, n.app.world.chain.bank.supply d = n₀.app.world.chain.bank.supply d) ∧
      (∀ d, n.app.world.chain.owed d ≤ n.app.world.chain.balance (.module .contract) d) ∧
      n.app.world.chain.bondSum ≤ n.app.world.chain.balance (.module .provider) denom := by
  obtain ⟨n, hrun, hsound, hsupply⟩ := Runs.run_progress
    (P := fun n => n.Sound cr ∧
      ∀ d, n.app.world.chain.bank.supply d = n₀.app.world.chain.bank.supply d)
    (fun n act hn hact => by
      obtain ⟨n', hstep⟩ := hn.1.progress hact
      obtain ⟨h', hsame⟩ := hn.1.step hstep
      exact ⟨n', hstep, h', fun d => (hsame d).trans (hn.2 d)⟩) ⟨hg.sound, fun _ => rfl⟩ hready
  refine ⟨n, hrun, hsupply, hsound.inv.solvent, ?_⟩
  have hbacked := hsound.bonded.backed
  unfold ChainState.bondSurplus at hbacked
  omega

/-! ## What a block pays -/

/-- The coins of the reserve. -/
def Node.reserve (n : Node) : ℤ := n.app.world.chain.balance (.module .reserve) denom

theorem ChainState.ensured_balance (s : ChainState) (entries : List Service) (seeded : Bool)
    (acc : Account) (d : String) : (s.ensured entries seeded).balance acc d = s.balance acc d := by
  unfold ensured
  split <;> rfl

/-- **The payout of a block**, of a sound node. -/
theorem Node.Sound.pays (h : n.Sound cr)
    (hstep : n.step cr codec descriptions swVersion distribution (.beginBlock input) = some n') :
    ∃ x m, (0 ≤ x ∧ 126230400 * x ≤ 2 * n.reserve + 63115200 ∧ x ≤ n.reserve) ∧
      n.params.beginBlockReward n.app.world.ctx.blockHeight n.reserve = some x ∧
      validatorPayout codec input.validatorByConsAddr n'.app.versions input.votes (ofInt x) = some m ∧
      n.reserve - n'.reserve ≤ m.total ∧
      (countedShares input.validatorByConsAddr input.votes = 0 ∨ x = 0 ∨
        Covered codec input.validatorByConsAddr n'.app.versions input.votes x →
          n.reserve - n'.reserve = m.total ∧ m.total ≤ x) := by
  obtain ⟨x, m, ⟨h0, hle⟩, hreward, hm, hchain, -, -⟩ := h.begun hstep
  have hn := h.inv.reserve_bounds.1
  have hx : x ≤ n.reserve := by
    unfold Node.reserve
    omega
  have hnonneg : ∀ y ∈ m.sends, 0 ≤ y :=
    validatorPayout_nonneg (Int.mul_nonneg h0 precision_pos.le) hm
  obtain ⟨hsent, hall⟩ := n.app.world.chain.offers_sent distribution hnonneg
  rw [m.sends_sum] at hsent hall
  have hreserve : n'.reserve = (n.app.world.chain.offers distribution m.sends).balance
      (.module .reserve) denom := by
    unfold Node.reserve
    rw [← hchain, ChainState.ensured_balance]
  refine ⟨x, m, ⟨h0, hle, hx⟩, hreward, hm, by rw [hreserve]; exact hsent, fun hcovered => ?_⟩
  have htotal := Moved.le_of_covered h0 hm hcovered
  have hexact := hall (htotal.trans hx)
  rw [hreserve]
  refine ⟨?_, htotal⟩
  change n.app.world.chain.balance _ _ - _ = _
  rw [hexact]
  omega

/-- **What a block pays.**  In every reachable state, what the start of a block takes out of the
reserve goes to the distribution module, and to no other account; it is at most what
`validatorPayout` computes from a 63115200th of the reserve, rounded, and exactly that, and no
more than this reward, where those that are paid are covered by those that are counted. -/
theorem block_pays (hg : n₀.Genesis) {actions : List NodeAction}
    (hrun : Runs.run (Node.step cr codec descriptions swVersion distribution) n₀ actions = some n)
    (hstep : n.step cr codec descriptions swVersion distribution (.beginBlock input) = some n') :
    (n'.reserve ≤ n.reserve ∧ n'.app.world.chain.balance (.user distribution) denom =
      n.app.world.chain.balance (.user distribution) denom + (n.reserve - n'.reserve)) ∧
    (∀ acc d, ¬((acc = .module .reserve ∨ acc = .user distribution) ∧ d = denom) →
      n'.app.world.chain.balance acc d = n.app.world.chain.balance acc d) ∧
    ∃ x m, (0 ≤ x ∧ 126230400 * x ≤ 2 * n.reserve + 63115200 ∧ x ≤ n.reserve) ∧
      n.params.beginBlockReward n.app.world.ctx.blockHeight n.reserve = some x ∧
      validatorPayout codec input.validatorByConsAddr n'.app.versions input.votes (ofInt x) = some m ∧
      n.reserve - n'.reserve ≤ m.total ∧
      (countedShares input.validatorByConsAddr input.votes = 0 ∨ x = 0 ∨
        Covered codec input.validatorByConsAddr n'.app.versions input.votes x →
          n.reserve - n'.reserve = m.total ∧ m.total ≤ x) := by
  have hsound : n.Sound cr := reachable_sound hg hrun
  obtain ⟨_, _, -, -, -, -, hframe, -⟩ := hsound.begun hstep
  refine ⟨⟨hframe.reserve, ?_⟩, hframe.others, hsound.pays hstep⟩
  have hpair := hframe.pair
  unfold Node.reserve
  omega

/-! ## The reserve is not used up -/

/-- Every validator that has signed is bonded and not jailed. -/
def BlockInput.Counted (input : BlockInput) : Prop :=
  input.votes.length < 2 ^ 59 ∧ ∀ vote ∈ input.votes, vote.blockIdFlag.skipped = false → ∀ val,
    input.validatorByConsAddr vote.address = some val → val.bonded = true ∧ val.jailed = false

def NodeAction.Counted : NodeAction → Prop
  | .beginBlock input => input.Counted
  | _ => True

/-- Whoever is counted is covered, for a reward that is small against the digits of a decimal. -/
theorem BlockInput.Counted.covered (h : input.Counted) (versions : VersionStore) (h0 : 0 ≤ x)
    (hx : x < 2 ^ 57) : countedShares input.validatorByConsAddr input.votes = 0 ∨ x = 0 ∨
      Covered codec input.validatorByConsAddr versions input.votes x := by
  have hcounted : ∀ vote ∈ input.votes, ∀ val,
      paidVote codec input.validatorByConsAddr versions vote = some val →
        countedVote input.validatorByConsAddr vote = some val := by
    intro vote hmem val hpaid
    unfold paidVote at hpaid
    split at hpaid
    · cases hpaid
    rename_i hskip
    obtain ⟨hval, -⟩ := Option.filter_eq_some_iff.mp hpaid
    obtain ⟨hbonded, hjailed⟩ := h.2 vote hmem (by simpa using hskip) val hval
    refine Option.filter_eq_some_iff.mpr ⟨hval, ?_⟩
    simp [hbonded, hjailed]
  have hlen : (input.votes.length : ℤ) < 2 ^ 59 := by exact_mod_cast h.1
  have hprec : precision = 10 ^ 18 := rfl
  rcases covered_of_counted h0 hcounted (by rw [hprec]; omega) with hzero | hcovered
  · exact .inl hzero
  · exact .inr (.inr hcovered)

theorem Node.Sound.reserve_step (h : n.Sound cr) (hcounted : act.Counted)
    (hstep : n.step cr codec descriptions swVersion distribution act = some n') :
    min n.reserve 31557599 ≤ n'.reserve := by
  cases act with
  | chain a =>
    obtain ⟨w, hw, rfl⟩ := Option.map_eq_some_iff.mp hstep
    have hle := step_spares h.inv h.bonded hw
      (show Account.module .reserve ≠ .module .contract by simp) (by simp) denom
    rw [Action.taken_module, sub_zero] at hle
    exact (min_le_left _ _).trans hle
  | setVersion msg =>
    obtain ⟨versions, -, rfl⟩ := Option.map_eq_some_iff.mp hstep
    exact min_le_left _ _
  | upgradeEmissionCurve newValue =>
    obtain rfl := Option.some.inj hstep
    exact min_le_left _ _
  | beginBlock input =>
    obtain ⟨x, m, ⟨h0, hle, -⟩, -, -, -, hall⟩ := h.pays hstep
    have hbal := h.inv.nonneg.bal_le_supply (.module .reserve) denom
    have hcap := h.capped
    have hmax := (fetchConfig .maxSupply).toInt_lt
    have hsmall : x < 2 ^ 57 := by
      unfold Node.reserve ChainState.balance at hle
      omega
    obtain ⟨hsent, htotal⟩ := hall (hcounted.covered _ h0 hsmall)
    omega

/-- **The reserve is not used up.**  While only validators that are bonded and not jailed have
signed, no run takes the reserve below 31557599 if it was not below that at the start.  From
a reserve that is no larger nothing is paid. -/
theorem reserve_remains (hg : n₀.Genesis) {actions : List NodeAction}
    (hcounted : ∀ act ∈ actions, act.Counted)
    (hrun : Runs.run (Node.step cr codec descriptions swVersion distribution) n₀ actions = some n) :
    min n₀.reserve 31557599 ≤ n.reserve := by
  refine (Runs.run_induct_of_guarded
    (P := fun n => n.Sound cr ∧ min n₀.reserve 31557599 ≤ n.reserve) ?_
    ⟨hg.sound, min_le_left _ _⟩
    (Runs.guarded_of_mem (G := fun _ act => act.Counted) (fun _ act hact => hcounted act hact) _)
    hrun).2
  rintro n act n' ⟨h, hle⟩ hact hstep
  have hnext := h.reserve_step hact hstep
  exact ⟨(h.step hstep).1, by omega⟩

/-! ## Whole blocks are steps of the module -/

theorem ChainState.offers_bank (s : ChainState) (distribution : Bytes) {xs : List ℤ}
    (hxs : ∀ x ∈ xs, 0 ≤ x) :
    ∃ bank journal, s.offers distribution xs = { s with bank := bank, journal := journal } := by
  refine offers_induct (P := fun t => ∃ bank journal, t = { s with bank := bank, journal := journal })
    hxs ⟨s.bank, s.journal, rfl⟩ ?_
  rintro t x ⟨bank, journal, rfl⟩ - -
  unfold sent
  split
  · exact ⟨_, _, rfl⟩
  · exact ⟨_, _, rfl⟩

/-- **A step of the node is a step of the module**, with the bank that the payout leaves, or
changes only the parameters. -/
theorem Node.Sound.app_step (h : n.Sound cr)
    (hstep : n.step cr codec descriptions swVersion distribution act = some n') :
    n'.app = n.app ∨ ∃ a, appStep cr codec descriptions swVersion n.app a = some n'.app := by
  cases act with
  | chain a =>
    obtain ⟨w, hw, rfl⟩ := Option.map_eq_some_iff.mp hstep
    exact .inr ⟨.chain a, congrArg (Option.map _) hw⟩
  | setVersion msg =>
    obtain ⟨versions, hv, rfl⟩ := Option.map_eq_some_iff.mp hstep
    exact .inr ⟨.setVersion msg, congrArg (Option.map _) hv⟩
  | upgradeEmissionCurve newValue =>
    obtain rfl := Option.some.inj hstep
    exact .inl rfl
  | beginBlock input =>
    obtain ⟨hperm, versions, s, hversion, hbegin, rfl⟩ := step_beginBlock.mp hstep
    obtain ⟨x, m, ⟨h0, -⟩, -, hm, rfl⟩ :=
      (beginBlock_ok h.inv.reserve_bounds.1 h.inv.reserve_bounds.2).mp hbegin
    have hnonneg : ∀ y ∈ m.sends, 0 ≤ y :=
      validatorPayout_nonneg (Int.mul_nonneg h0 precision_pos.le) hm
    obtain ⟨bank, journal, hoffers⟩ := n.app.world.chain.offers_bank distribution hnonneg
    refine .inr ⟨.beginBlock input.validators input.entries bank journal, ?_⟩
    unfold appStep
    simp only
    rw [if_pos (List.isPerm_iff.mpr hperm), hversion, ensureServiceRegistrySeeded_eq, ← hoffers]

/-- **The blocks of the chain and the export of its state.**  Every state that whole blocks
reach from a genesis without contracts and providers that lists its services coherently is
exported to a valid genesis, and restored from it, while its registry is not empty. -/
theorem node_roundTrips {gs : GenesisState} {entries : List Service} {validators : List Validator}
    {bank : Ledger Account String} (hlaw : codec.Lawful) (hread : codec.ReadsNonempty)
    (hsw : 0 ≤ swVersion) (hperm : entries.Perm (staticServices descriptions))
    (hvalid : gs.validate codec = .ok ()) (hcoherent : gs.Coherent)
    (hinit : initGenesis codec entries gs { bank := bank } ∅ =
      some (n₀.app.world.chain, n₀.app.versions)) (hg : n₀.Genesis) {actions : List NodeAction}
    (hrun : Runs.run (Node.step cr codec descriptions swVersion distribution) n₀ actions = some n)
    (hne : n.app.world.chain.services ≠ ∅) (hnodup : (validators.map Validator.operator).Nodup) :
    RoundTrips codec validators n.app.world.chain n.app.versions := by
  have happ : n.Sound cr ∧ ∃ steps,
      Runs.run (appStep cr codec descriptions swVersion) n₀.app steps = some n.app := by
    refine Runs.run_induct (P := fun n => n.Sound cr ∧ ∃ steps,
      Runs.run (appStep cr codec descriptions swVersion) n₀.app steps = some n.app) ?_
      ⟨hg.sound, [], rfl⟩ hrun
    rintro n act n' ⟨h, steps, hsteps⟩ hstep
    refine ⟨(h.step hstep).1, ?_⟩
    rcases h.app_step hstep with hsame | ⟨a, ha⟩
    · exact ⟨steps, by rw [hsame]; exact hsteps⟩
    · exact ⟨steps ++ [a], Runs.run_append.mpr ⟨_, hsteps, Runs.run_cons.mpr ⟨_, ha, rfl⟩⟩⟩
  obtain ⟨-, steps, hsteps⟩ := happ
  exact genesis_roundTrips hlaw hread hsw hperm hvalid hcoherent hinit hsteps hne hnodup

/-! ## A chain that pays its validators -/

namespace Sample

/-- The reserve holds a hundred years of blocks. -/
def reserved : World :=
  { genesis with
    chain := { genesis.chain with
      bank := Ledger.credit bank (.module .reserve) denom 6311520000 } }

/-- The registry is seeded. -/
def node : Node where
  app := { world := reserved, versions := ∅, seeded := true }

theorem reserved_ok : Genesis reserved where
  contracts := rfl
  expirationSets := rfl
  userSets := rfl
  nextContractId := rfl
  providers := rfl
  journal := rfl
  events := rfl
  accepted := rfl
  nonneg a d := by
    change 0 ≤ Ledger.bal (Ledger.credit bank (.module .reserve) denom 6311520000) a d
    rw [Ledger.bal_credit]
    have := genesis_ok.nonneg a d
    change 0 ≤ Ledger.bal bank a d at this
    split <;> omega
  supply d := by
    change Ledger.supply (Ledger.credit bank (.module .reserve) denom 6311520000) d < 2 ^ 256
    rw [Ledger.supply_credit, bank, Ledger.supply_credit, Ledger.supply_credit]
    have h0 : Ledger.supply (∅ : Ledger Account String) d = 0 := AList.sumOver_empty _
    rw [h0]
    split <;> omega

theorem node_ok : node.Genesis where
  world := reserved_ok
  capped := by
    change Ledger.supply (Ledger.credit bank (.module .reserve) denom 6311520000) denom ≤ _
    rw [Ledger.supply_credit, bank, Ledger.supply_credit, Ledger.supply_credit]
    have h0 : Ledger.supply (∅ : Ledger Account String) denom = 0 := AList.sumOver_empty _
    rw [h0]
    decide

/-- Of two validators one has signed. -/
def signedBlock : BlockInput where
  validators := [first, second]
  validatorByConsAddr := byConsAddr
  votes := oneSigned
  entries := staticServices fun _ => ""

theorem signedBlock_ready : signedBlock.Ready pairCodec (fun _ => "") 15 ∅ where
  entries := .refl _
  supported := by decide +kernel
  readable := by
    intro vote hmem _ val hval
    have hvote : vote = ⟨[1], .commit⟩ ∨ vote = ⟨[2], .absent⟩ := by
      simpa [signedBlock, oneSigned] using hmem
    rcases hvote with rfl | rfl
    · obtain rfl := Option.some.inj hval
      exact ⟨provider.addr, by decide +kernel⟩
    · obtain rfl := Option.some.inj hval
      exact ⟨client.addr, by decide +kernel⟩
  shares_fit := by decide +kernel
  votes_fit := by decide

theorem signedBlock_counted : signedBlock.Counted := by
  refine ⟨by decide, fun vote hmem hskip val hval => ?_⟩
  have hvote : vote = ⟨[1], .commit⟩ ∨ vote = ⟨[2], .absent⟩ := by
    simpa [signedBlock, oneSigned] using hmem
  rcases hvote with rfl | rfl
  · obtain rfl := Option.some.inj hval
    decide
  · cases hskip

/-- A block is begun, the emission curve upgraded, and the block ends. -/
def wholeBlock : List NodeAction :=
  [.beginBlock signedBlock, .upgradeEmissionCurve 5, .chain .endBlock]

theorem wholeBlock_ready : Runs.Guarded
    (Node.step crypto pairCodec (fun _ => "") 15 provider.addr)
    (NodeAction.Ready pairCodec (fun _ => "") 15) node wholeBlock := by
  refine ⟨signedBlock_ready, fun n hn => ⟨trivial, fun n' hn' => ⟨?_, fun _ _ => trivial⟩⟩⟩
  obtain ⟨-, versions, s, -, -, rfl⟩ := step_beginBlock.mp hn
  obtain rfl := Option.some.inj hn'
  change node.app.world.ctx.next.isSome = true
  decide

/-- The block is begun. -/
theorem signedBlock_begun : ∃ n, node.step crypto pairCodec (fun _ => "") 15 provider.addr
    (.beginBlock signedBlock) = some n :=
  node_ok.sound.progress signedBlock_ready

end Sample

/-- A whole block of a chain with a reserve. -/
theorem wholeBlock_runs : ∃ n,
    Runs.run (Node.step Sample.crypto Sample.pairCodec (fun _ => "") 15 Sample.provider.addr)
      Sample.node Sample.wholeBlock = some n ∧
    n.app.world.chain.bondSum ≤ n.app.world.chain.balance (.module .provider) denom := by
  obtain ⟨n, hrun, -, -, hbonds⟩ := node_runs_on Sample.node_ok Sample.wholeBlock_ready
  exact ⟨n, hrun, hbonds⟩

/-- The validator that has signed is paid the hundred coins of the block. -/
theorem signedBlock_pays : ∃ n,
    Sample.node.step Sample.crypto Sample.pairCodec (fun _ => "") 15 Sample.provider.addr
      (.beginBlock Sample.signedBlock) = some n ∧ Sample.node.reserve - n.reserve = 100 := by
  obtain ⟨n, hn⟩ := Sample.signedBlock_begun
  refine ⟨n, hn, ?_⟩
  obtain ⟨-, versions, s, hversions, -, hnext⟩ := step_beginBlock.mp hn
  obtain ⟨-, -, x, m, -, hx, hm, -, hall⟩ :=
    block_pays Sample.node_ok (show Runs.run _ Sample.node [] = _ from rfl) hn
  have hreward : Sample.node.params.beginBlockReward Sample.node.app.world.ctx.blockHeight
      Sample.node.reserve = some 100 := by decide +kernel
  obtain rfl : (100 : ℤ) = x := Option.some.inj (hreward.symm.trans hx)
  have hver : versions = (∅ : VersionStore).setVersion 1 := by
    have h : versionStep Sample.pairCodec 15 ∅ (.beginBlock [Sample.first, Sample.second]) =
        some ((∅ : VersionStore).setVersion 1) := by
      have hcomputed : getComputedVersion Sample.pairCodec 15 [Sample.first, Sample.second] ∅ = 1 := by
        decide +kernel
      simp only [versionStep]
      rw [hcomputed]
      exact if_neg (by decide)
    exact Option.some.inj (hversions.symm.trans h)
  have hnv : n.app.versions = (∅ : VersionStore).setVersion 1 := by
    rw [← hnext, ← hver]
  rw [hnv] at hm hall
  have hmoved : validatorPayout Sample.pairCodec Sample.byConsAddr
      ((∅ : VersionStore).setVersion 1) Sample.oneSigned (ofInt 100) =
        some { toDistribution := [100], toCommunityPool := 0 } := by decide +kernel
  obtain rfl := Option.some.inj (hmoved.symm.trans hm)
  exact (hall (.inr (.inr (by unfold Covered; decide +kernel)))).1

/-- After the block is begun the reserve still holds its coins. -/
theorem signedBlock_reserve_remains : ∃ n,
    Runs.run (Node.step Sample.crypto Sample.pairCodec (fun _ => "") 15 Sample.provider.addr)
      Sample.node [.beginBlock Sample.signedBlock] = some n ∧ 31557599 ≤ n.reserve := by
  obtain ⟨n, hn⟩ := Sample.signedBlock_begun
  have hrun : Runs.run (Node.step Sample.crypto Sample.pairCodec (fun _ => "") 15
      Sample.provider.addr) Sample.node [.beginBlock Sample.signedBlock] = some n :=
    Runs.run_cons.mpr ⟨n, hn, rfl⟩
  have hcounted : ∀ act ∈ [NodeAction.beginBlock Sample.signedBlock], act.Counted := by
    intro act hact
    obtain rfl := List.mem_singleton.mp hact
    exact Sample.signedBlock_counted
  have hle := reserve_remains Sample.node_ok hcounted hrun
  have hreserve : Sample.node.reserve = 6311520000 := by decide +kernel
  rw [hreserve] at hle
  exact ⟨n, hrun, hle⟩

namespace Sample

/-- A chain with one service at its start. -/
def listedNode : Node where
  app := start listed

theorem listedNode_ok : listedNode.Genesis where
  world :=
    { contracts := rfl
      expirationSets := rfl
      userSets := rfl
      nextContractId := rfl
      providers := rfl
      journal := rfl
      events := rfl
      accepted := rfl
      nonneg := fun _ _ => le_rfl
      supply := fun d => by
        have h0 : Ledger.supply (∅ : Ledger Account String) d = 0 := AList.sumOver_empty _
        change Ledger.supply (∅ : Ledger Account String) d < 2 ^ 256
        omega }
  capped := by
    have h0 : Ledger.supply (∅ : Ledger Account String) denom = 0 := AList.sumOver_empty _
    change Ledger.supply (∅ : Ledger Account String) denom ≤ _
    rw [h0]
    decide

/-- The validator has signed. -/
def listedInput : BlockInput where
  validators := [validator]
  validatorByConsAddr := fun _ => some { validator with delegatorShares := 10 ^ 18 }
  votes := [⟨[1], .commit⟩]
  entries := staticServices fun _ => ""

/-- A block is begun, a second service registered, a version announced, and the block ends. -/
def listedBlock : List NodeAction :=
  [.beginBlock listedInput,
   .chain (.msg (.registerService
      { creator := provider.account, id := 6, name := "Ether", description := ""
        serviceType := "" })),
   .setVersion announcement, .chain .endBlock]

end Sample

/-- A chain with one service at its start, and a second one that is registered in a block that
begins and ends. -/
theorem listedNode_roundTrips : ∃ n,
    Runs.run (Node.step Sample.crypto Sample.addressCodec (fun _ => "") 15 Sample.provider.addr)
      Sample.listedNode Sample.listedBlock = some n ∧
    RoundTrips Sample.addressCodec [Sample.validator] n.app.world.chain n.app.versions := by
  have hrun : (Runs.run
      (Node.step Sample.crypto Sample.addressCodec (fun _ => "") 15 Sample.provider.addr)
      Sample.listedNode Sample.listedBlock).map
        (fun n => n.app.world.chain.services.entries.length) = some 2 := by decide +kernel
  obtain ⟨n, hrun, hlength⟩ := Option.map_eq_some_iff.mp hrun
  refine ⟨n, hrun, ?_⟩
  have hinit := @Sample.start_init Sample.listed (by decide) (by decide +kernel) rfl rfl rfl rfl
    (staticServices fun _ => "")
  have hcoherent : Sample.listed.Coherent := by
    unfold GenesisState.Coherent SecondaryIndex.Coherent
    decide +kernel
  refine node_roundTrips Sample.addressCodec_lawful Sample.addressCodec_reads (by decide)
    (List.Perm.refl _) (by decide +kernel) hcoherent hinit Sample.listedNode_ok hrun ?_
    (by decide +kernel)
  intro hempty
  rw [hempty] at hlength
  cases hlength

end Arkeo
