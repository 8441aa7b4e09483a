import Arkeo.Quorum
import Arkeo.Versions

/-! # The version the validators agree on

`GetComputedVersion` counts the announced versions in the order of the validators and
returns the first that reaches `VersionConsensus` percent of them.  The percentage is
rounded down, so that fewer than ninety in a hundred can be enough (nine of eleven), and of
two validators each decides alone: the version then is that of the one that comes first.
-/
namespace Arkeo

variable {codec : AddressCodec} {swVersion : Int64} {s : VersionStore} {validators : List Validator}

/-- The versions as `GetComputedVersion` reads them. -/
def announced (codec : AddressCodec) (s : VersionStore) (validators : List Validator) : List Int64 :=
  validators.map fun val => validatorVersion codec val s

/-- The number of validators that is enough, in 64 bits. -/
def minNum (n : ℕ) : Int64 := Int64.ofNat n * versionConsensus / 100

/-- The loop over bonded validators is the count of a quorum. -/
theorem countVersions_eq (min currentVersion : Int64) {seen : List Int64}
    (hbonded : ∀ val ∈ validators, val.bonded = true)
    (hlen : seen.length + validators.length < 2 ^ 63) :
    countVersions codec min currentVersion s validators (fun v => Int64.ofNat (seen.count v)) =
      Quorum.countOn min.toInt currentVersion seen (announced codec s validators) := by
  induction validators generalizing seen with
  | nil => rfl
  | cons val validators ih =>
    obtain ⟨hval, hbonded⟩ := List.forall_mem_cons.mp hbonded
    rw [List.length_cons] at hlen
    unfold countVersions
    rw [hval]
    simp only [Bool.not_true, Bool.false_eq_true, if_false]
    rw [announced, List.map_cons, Quorum.countOn, ← announced]
    set ver := validatorVersion codec val s
    have hcount := List.count_le_length (a := ver) (l := seen)
    have hnext : Int64.ofNat (seen.count ver) + 1 = Int64.ofNat (seen.count ver + 1) :=
      (Int64.ofNat_add _ _).symm
    have htest : min ≤ Int64.ofNat (seen.count ver) + 1 ↔ min.toInt ≤ seen.count ver + 1 := by
      rw [hnext, Int64.le_iff_toInt_le, Int64.toInt_ofNat_of_lt (by omega)]
      push_cast
      rfl
    have htally : Function.update (fun v => Int64.ofNat (seen.count v)) ver
        (Int64.ofNat (seen.count ver) + 1) = fun v => Int64.ofNat ((seen ++ [ver]).count v) := by
      funext v
      by_cases hv : v = ver
      · subst hv
        rw [Function.update_self, List.count_append, List.count_singleton_self, hnext]
      · rw [Function.update_of_ne hv, List.count_append,
          List.count_eq_zero.mpr (mt List.mem_singleton.mp hv), Nat.add_zero]
    by_cases hmin : min ≤ Int64.ofNat (seen.count ver) + 1
    · rw [if_pos hmin, if_pos (htest.mp hmin)]
    · rw [if_neg hmin, if_neg (mt htest.mpr hmin), htally]
      refine ih hbonded ?_
      rw [List.length_append, List.length_singleton]
      omega

theorem getComputedVersion_eq (swVersion : Int64) (hbonded : ∀ val ∈ validators, val.bonded = true)
    (htwo : 2 ≤ validators.length) (hlen : validators.length < 2 ^ 63) :
    getComputedVersion codec swVersion validators s =
      Quorum.firstToReach (minNum validators.length).toInt s.getVersion
        (announced codec s validators) := by
  unfold getComputedVersion
  rw [if_neg (by omega)]
  have hseen : ([] : List Int64).length + validators.length < 2 ^ 63 := by simpa using hlen
  exact countVersions_eq _ _ hbonded hseen

/-- The version that is computed is the current one or one that enough validators announce,
in percent, whatever the order of the validators. -/
structure Agreed (codec : AddressCodec) (swVersion : Int64) (validators : List Validator)
    (s : VersionStore) : Prop where
  enough : getComputedVersion codec swVersion validators s = s.getVersion ∨
    versionConsensus.toInt * validators.length ≤
      100 * (announced codec s validators).count (getComputedVersion codec swVersion validators s)
  order : ∀ validators', validators'.Perm validators →
    getComputedVersion codec swVersion validators' s = getComputedVersion codec swVersion validators s

/-- Enough validators announce the version, for the loop. -/
def Accepted (codec : AddressCodec) (validators : List Validator) (s : VersionStore) (v : Int64) :
    Prop :=
  Quorum.Reached (minNum validators.length).toInt (announced codec s validators) v

/-- **The condition.**  A version that reaches the rounded number of validators is the
current one or reaches the percentage, and no two versions do. -/
structure Decisive (codec : AddressCodec) (validators : List Validator) (s : VersionStore) : Prop where
  enough : ∀ v, Accepted codec validators s v → v = s.getVersion ∨
    versionConsensus.toInt * validators.length ≤ 100 * (announced codec s validators).count v
  unique : ∀ v v', Accepted codec validators s v → Accepted codec validators s v' → v = v'

/-- An order of the versions is one of the validators. -/
theorem exists_perm_validators {l : List Int64} (h : l.Perm (announced codec s validators)) :
    ∃ validators', validators'.Perm validators ∧ announced codec s validators' = l := by
  have hcomp := congrFun (congrFun
    (List.eq_map_comp_perm fun val => validatorVersion codec val s) l) validators
  obtain ⟨validators', heq, hperm⟩ := hcomp.mpr h
  exact ⟨validators', hperm, heq.symm⟩

/-- The order of the validators matters to `GetComputedVersion` as that of the votes does
to the count. -/
theorem computedVersion_order_iff (hbonded : ∀ val ∈ validators, val.bonded = true)
    (htwo : 2 ≤ validators.length) (hlen : validators.length < 2 ^ 63) :
    (∀ validators', validators'.Perm validators →
      getComputedVersion codec swVersion validators' s =
        getComputedVersion codec swVersion validators s) ↔
      ∀ v v', Accepted codec validators s v → Accepted codec validators s v' → v = v' := by
  have heq : ∀ validators', validators'.Perm validators →
      getComputedVersion codec swVersion validators' s =
        Quorum.firstToReach (minNum validators.length).toInt s.getVersion
          (announced codec s validators') := by
    intro validators' hperm
    have hlength := hperm.length_eq
    rw [← hlength]
    exact getComputedVersion_eq swVersion (fun val hval => hbonded val (hperm.mem_iff.mp hval))
      (by omega) (by omega)
  unfold Accepted
  rw [← @Quorum.firstToReach_perm_iff _ _ _ s.getVersion]
  constructor
  · intro hsame l hl
    obtain ⟨validators', hperm, rfl⟩ := exists_perm_validators hl
    rw [← heq validators' hperm, ← heq validators (List.Perm.refl _)]
    exact hsame validators' hperm
  · intro hsame validators' hperm
    rw [heq validators' hperm, heq validators (List.Perm.refl _)]
    exact hsame _ (hperm.map _)

/-- **Validators agree exactly when at most one version is accepted, and with reason.** -/
theorem computedVersion_agreed_iff (hbonded : ∀ val ∈ validators, val.bonded = true)
    (htwo : 2 ≤ validators.length) (hlen : validators.length < 2 ^ 63) :
    Agreed codec swVersion validators s ↔ Decisive codec validators s := by
  have heq := @getComputedVersion_eq codec s validators swVersion hbonded htwo hlen
  have horder := @computedVersion_order_iff codec swVersion s validators hbonded htwo hlen
  constructor
  · rintro ⟨henough, hsame⟩
    refine ⟨?_, horder.mp hsame⟩
    intro v hv
    -- the accepted version is the only one, so it is what is computed
    have hcomputed : getComputedVersion codec swVersion validators s = v := by
      rw [heq]
      exact horder.mp hsame _ v (Quorum.firstToReach_reached hv) hv
    rw [hcomputed] at henough
    exact henough
  · rintro ⟨henough, hunique⟩
    refine ⟨?_, horder.mpr hunique⟩
    by_cases hsome : ∃ v, Accepted codec validators s v
    · obtain ⟨v, hv⟩ := hsome
      rw [heq]
      exact henough _ (Quorum.firstToReach_reached hv)
    · left
      rw [heq]
      exact Quorum.firstToReach_fallback fun v hv => hsome ⟨v, hv⟩

namespace Sample

/-- Two validators as operators. -/
def pair : List (Bytes × String) :=
  [(provider.addr, "arkeovaloper1fa0vscqxtq8l4pgy9veammtzyace8es4npaax0"),
   (client.addr, "arkeovaloper1t8940tndz54yajtlc4v72qr3q330yenuzxv6tx")]

def pairCodec : AddressCodec where
  accString b := addressCodec.accString b
  valString := knownText pair
  valBytes text := (pair.find? fun d => d.2 = text).map Prod.fst

def first : Validator where
  operator := "arkeovaloper1fa0vscqxtq8l4pgy9veammtzyace8es4npaax0"

def second : Validator where
  operator := "arkeovaloper1t8940tndz54yajtlc4v72qr3q330yenuzxv6tx"

/-- The first validator is read with version 2, the second one and the chain with version 1. -/
def upgrading : VersionStore :=
  (∅ : VersionStore).setVersionForAddress pairCodec provider.addr 2

end Sample

/-- Two validators that have not announced anything. -/
theorem idle_pair_agreed : [Sample.first, Sample.second].length = 2 ∧
    (Agreed Sample.pairCodec 2 [Sample.first, Sample.second] ∅ ↔
      Decisive Sample.pairCodec [Sample.first, Sample.second] ∅) :=
  ⟨rfl, computedVersion_agreed_iff (by decide) (by decide) (by decide)⟩

/-- **One of two decides.**  The version computed is that of the validator that is listed
first, with half of the validators behind it. -/
theorem pair_disagrees :
    (∀ val ∈ [Sample.first, Sample.second], val.bonded = true) ∧
      Sample.upgrading.getVersion = 1 ∧
      getComputedVersion Sample.pairCodec 2 [Sample.first, Sample.second] Sample.upgrading = 2 ∧
      getComputedVersion Sample.pairCodec 2 [Sample.second, Sample.first] Sample.upgrading = 1 ∧
      (announced Sample.pairCodec Sample.upgrading [Sample.first, Sample.second]).count 2 = 1 ∧
      ¬Agreed Sample.pairCodec 2 [Sample.first, Sample.second] Sample.upgrading := by
  have h : Sample.upgrading.getVersion = 1 ∧
      getComputedVersion Sample.pairCodec 2 [Sample.first, Sample.second] Sample.upgrading = 2 ∧
      getComputedVersion Sample.pairCodec 2 [Sample.second, Sample.first] Sample.upgrading = 1 ∧
      (announced Sample.pairCodec Sample.upgrading [Sample.first, Sample.second]).count 2 = 1 := by
    decide +kernel
  obtain ⟨hcurrent, hfirst, hsecond, hcount⟩ := h
  refine ⟨by decide, hcurrent, hfirst, hsecond, hcount, ?_⟩
  rintro ⟨-, horder⟩
  have hsame := horder [Sample.second, Sample.first] (List.Perm.swap _ _ _)
  rw [hfirst, hsecond] at hsame
  exact absurd hsame (by decide)

end Arkeo
