import Mathlib.Algebra.Order.Field.Basic
import PlanarKalman.Proofs.SquareRoot
import PlanarKalman.Walk.Intensity

/-!
# Intensities in closed form

The measuring of a path carries one number along, the longest step so far. Unrolled, it is the
largest of the least distance and the distances of all steps up to this one
(`longestUpTo`), and an intensity is a distance divided by it (`ofPath_eq`). This holds in
any number system in which the larger of two numbers is their maximum.

The rest is about a quotient of a number by a bound of it that is positive: it lies between
zero and one, and it reaches one where the number reaches the bound.
-/

namespace PlanarKalman.Intensity

variable {K : Type} [Field K] [LinearOrder K] [SquareRoot K]

/-- The lengths of the steps of a path. -/
def stepDistances (path : List (Point K)) : List K :=
  (path.zip path.tail).map fun step => step.1.distance step.2

theorem length_stepDistances (path : List (Point K)) :
    (stepDistances path).length = path.length - 1 := by
  rw [stepDistances, List.length_map, List.length_zip, List.length_tail,
    Nat.min_eq_right (Nat.sub_le _ _)]

/-- The longest of the steps up to step `i` and of `least`. -/
def longestUpTo (least : K) (distances : List K) (i : ℕ) : K :=
  (distances.take (i + 1)).foldl max least

omit [SquareRoot K] in
theorem longestUpTo_le_iff {least b : K} {distances : List K} {i : ℕ} :
    longestUpTo least distances i ≤ b ↔
      least ≤ b ∧ ∀ distance ∈ distances.take (i + 1), distance ≤ b := by
  unfold longestUpTo
  induction distances.take (i + 1) generalizing least with
  | nil => simp
  | cons distance rest ih =>
      rw [List.foldl_cons, ih, max_le_iff, List.forall_mem_cons, and_assoc]

/-! ## The closed form -/

/-- Each step against the longest up to it. -/
def relativeTo (least : K) (distances : List K) : List K :=
  distances.mapIdx fun i distance => distance / longestUpTo least distances i

omit [SquareRoot K] in
theorem relativeTo_cons (least distance : K) (rest : List K) :
    relativeTo least (distance :: rest)
      = distance / max least distance :: relativeTo (max least distance) rest := by
  rw [relativeTo, List.mapIdx_cons]
  rfl

theorem reverse_measureOnto (longest : K) (previous : Point K) (path : List (Point K)) :
    (measureOnto [] longest previous path).reverse
      = relativeTo longest (stepDistances (previous :: path)) := by
  induction path generalizing longest previous with
  | nil => rfl
  | cons current rest ih =>
      have hsteps : stepDistances (previous :: current :: rest)
          = previous.distance current :: stepDistances (current :: rest) := rfl
      rw [hsteps, relativeTo_cons, measureOnto, measureOnto_eq, List.reverse_append,
        larger_eq_max, ih]
      rfl

theorem ofPath_eq (path : List (Point K)) :
    ofPath path = relativeTo leastDistance (stepDistances path) := by
  cases path with
  | nil => rfl
  | cons start rest => exact reverse_measureOnto leastDistance start rest

/-! ## What an intensity tells -/

/-- The intensity of step `i`, which covers `distance`. -/
structure IsIntensity (distances : List K) (i : ℕ) (distance value : K) : Prop where
  eq_div : value = distance / longestUpTo 0.01 distances i
  mem_Icc : value ∈ Set.Icc 0 1
  eq_zero_iff : value = 0 ↔ distance = 0
  one_le_iff_eq : 1 ≤ value ↔ distance = longestUpTo 0.01 distances i
  one_le_iff : 1 ≤ value ↔ 0.01 ≤ distance ∧
    ∀ j < i, ∀ earlier, distances[j]? = some earlier → earlier ≤ distance

omit [SquareRoot K] in
theorem forall_mem_take_succ_le_iff {distances : List K} {i : ℕ} {distance : K}
    (h : distances[i]? = some distance) :
    (∀ d ∈ distances.take (i + 1), d ≤ distance) ↔
      ∀ j < i, ∀ earlier, distances[j]? = some earlier → earlier ≤ distance := by
  rw [List.take_add_one, h, Option.toList_some, List.forall_mem_append,
    List.forall_mem_singleton, and_iff_left le_rfl]
  constructor
  · intro hall j hj earlier hearlier
    refine hall earlier (List.mem_of_getElem? (i := j) ?_)
    rw [List.getElem?_take_of_lt hj, hearlier]
  · intro hall d hd
    obtain ⟨j, hj⟩ := List.mem_iff_getElem?.mp hd
    rw [List.getElem?_take] at hj
    split at hj
    · rename_i hlt
      exact hall j hlt d hj
    · cases hj

variable [IsStrictOrderedRing K]

omit [SquareRoot K] in
theorem isIntensity {distances : List K} (hnonneg : ∀ d ∈ distances, 0 ≤ d) {i : ℕ}
    {distance : K} (h : distances[i]? = some distance) :
    IsIntensity distances i distance (distance / longestUpTo 0.01 distances i) := by
  obtain ⟨hleast, hlongest⟩ := longestUpTo_le_iff.mp (le_refl (longestUpTo 0.01 distances i))
  have hpos : 0 < longestUpTo 0.01 distances i := lt_of_lt_of_le (by norm_num) hleast
  have hdistance : 0 ≤ distance := hnonneg distance (List.mem_of_getElem? h)
  have hle : distance ≤ longestUpTo 0.01 distances i := by
    refine hlongest distance (List.mem_of_getElem? (i := i) ?_)
    rw [List.getElem?_take_of_lt (Nat.lt_succ_self i), h]
  refine ⟨rfl, ⟨div_nonneg hdistance hpos.le, (div_le_one hpos).mpr hle⟩, ?_, ?_, ?_⟩
  · rw [div_eq_zero_iff, or_iff_left hpos.ne']
  · rw [one_le_div hpos]
    exact ⟨fun hge => le_antisymm hle hge, fun heq => heq.ge⟩
  · rw [one_le_div hpos, longestUpTo_le_iff, forall_mem_take_succ_le_iff h]

variable [LawfulSquareRoot K]

theorem stepDistances_nonneg {path : List (Point K)} : ∀ d ∈ stepDistances path, 0 ≤ d := by
  intro d hd
  obtain ⟨step, -, rfl⟩ := List.mem_map.mp hd
  exact Point.distance_nonneg _ _

/-- A path has an intensity for each of its steps: its length against the longest step so far,
a number between zero and one that is zero for a step that goes nowhere and reaches one for a
step that is as long as all before it and as the least distance. So the number of intensities
that reach one is the number of steps that reach the longest so far. -/
theorem intensity_closed_form (path : List (Point K)) :
    (ofPath path).length = path.length - 1 ∧
    (stepDistances path).length = path.length - 1 ∧
    (∀ (i : ℕ) (distance : K), (stepDistances path)[i]? = some distance →
      ∃ value, (ofPath path)[i]? = some value ∧
        IsIntensity (stepDistances path) i distance value) ∧
    (ofPath path).countP (fun value => 1.0 ≤ value)
      = (stepDistances path).zipIdx.countP fun step =>
          step.1 = longestUpTo 0.01 (stepDistances path) step.2 := by
  have hclosed : ofPath path = (stepDistances path).mapIdx fun i distance =>
      distance / longestUpTo 0.01 (stepDistances path) i := ofPath_eq path
  refine ⟨length_ofPath path, length_stepDistances path, fun i distance hi => ?_, ?_⟩
  · refine ⟨_, ?_, isIntensity stepDistances_nonneg hi⟩
    rw [hclosed, List.getElem?_mapIdx, hi, Option.map_some]
  · rw [hclosed, List.mapIdx_eq_zipIdx_map, List.countP_map]
    refine List.countP_congr fun ⟨distance, i⟩ hstep => ?_
    have h := isIntensity stepDistances_nonneg (List.mem_zipIdx_iff_getElem?.mp hstep)
    have hone : (1.0 : K) = 1 := by norm_num
    rw [Function.comp_apply, decide_eq_true_iff, decide_eq_true_iff, hone]
    exact h.one_le_iff_eq

/-- A path with a very short first step, a step that goes nowhere, and a long one. -/
noncomputable def pausingPath : List (Point ℝ) :=
  [⟨0, 0⟩, ⟨0.003, 0.004⟩, ⟨0.003, 0.004⟩, ⟨3.003, 4.004⟩]

theorem stepDistances_pausingPath : stepDistances pausingPath = [0.005, 0, 5] := by
  have hfirst : (⟨0, 0⟩ : Point ℝ).distance ⟨0.003, 0.004⟩ = 0.005 :=
    (Point.distance_eq_iff (by norm_num)).mpr (by norm_num)
  have hpause : (⟨0.003, 0.004⟩ : Point ℝ).distance ⟨0.003, 0.004⟩ = 0 :=
    (Point.distance_eq_iff le_rfl).mpr (by norm_num)
  have hlong : (⟨0.003, 0.004⟩ : Point ℝ).distance ⟨3.003, 4.004⟩ = 5 :=
    (Point.distance_eq_iff (by norm_num)).mpr (by norm_num)
  simp [stepDistances, pausingPath, hfirst, hpause, hlong]

/-- Of the three steps only the last reaches the longest so far: the first is shorter than the
least distance. -/
theorem intensity_closed_form_of_pausing :
    (ofPath pausingPath)[0]? = some (0.5 : ℝ) ∧
      (ofPath pausingPath).countP (fun value => 1.0 ≤ value) = 1 := by
  obtain ⟨-, -, hvalues, hcount⟩ := intensity_closed_form pausingPath
  rw [stepDistances_pausingPath] at hvalues hcount
  obtain ⟨value, hvalue, hfirst⟩ := hvalues 0 0.005 rfl
  refine ⟨?_, hcount.trans ?_⟩
  · rw [hvalue, hfirst.eq_div]
    norm_num [longestUpTo]
  · norm_num [longestUpTo, List.zipIdx, List.countP_cons]

end PlanarKalman.Intensity
