import Mathlib.Algebra.Order.Floor.Ring
import Mathlib.Algebra.Order.Field.Basic
import Mathlib.Data.List.Induction
import Mathlib.Data.Rat.Floor
import Mathlib.Tactic.Linarith
import RtkLocalization.Lib.Scatter

/-!
# `pcd2pgm.cpp`

`setMapTopicMsg` draws the points of a cloud into the occupancy grid that the planner loads.
Numbers are exact, and the conversions to `int` and `uint32_t` are in range.
-/

namespace RtkLocalization
namespace Pcd2Pgm

structure PointXYZ (K : Type) where
  x : K
  y : K
  z : K

structure OccupancyGrid (K : Type) where
  resolution : K
  originX : K
  originY : K
  width : ℕ
  height : ℕ
  data : List ℤ

section Program
variable {K : Type} [Field K] [LinearOrder K] [FloorRing K]

def minimum (f : PointXYZ K → K) (first : PointXYZ K) (rest : List (PointXYZ K)) : K :=
  rest.foldl (fun m p => min m (f p)) (f first)

def maximum (f : PointXYZ K → K) (first : PointXYZ K) (rest : List (PointXYZ K)) : K :=
  rest.foldl (fun m p => max m (f p)) (f first)

/-- The entry of `data` that a point sets. -/
def cell (mapResolution xMin yMin : K) (width height : ℕ) (p : PointXYZ K) : Option ℕ :=
  let i := ⌊(p.x - xMin) / mapResolution⌋
  let j := ⌊(p.y - yMin) / mapResolution⌋
  if 0 ≤ i ∧ i < width ∧ 0 ≤ j ∧ j < height then some (i.toNat + j.toNat * width) else none

/-- The message is left alone when there are no points. -/
def setMapTopicMsg (mapResolution : K) : List (PointXYZ K) → Option (OccupancyGrid K)
  | [] => none
  | p :: ps =>
    let xMin := minimum (·.x) p ps
    let yMin := minimum (·.y) p ps
    let width := ⌈(maximum (·.x) p ps - xMin) / mapResolution⌉.toNat
    let height := ⌈(maximum (·.y) p ps - yMin) / mapResolution⌉.toNat
    some ⟨mapResolution, xMin, yMin, width, height,
      Scatter.scatter (cell mapResolution xMin yMin width height) (fun _ _ => 100)
        (List.replicate (width * height) 0) (p :: ps)⟩

end Program

theorem foldl_set {ι : Type} (ps : List ι) (a : ℤ) :
    ps.foldl (fun a p => (fun _ _ => 100 : ι → ℤ → ℤ) p a) a
      = if ps.isEmpty = true then a else 100 := by
  induction ps generalizing a with
  | nil => rfl
  | cons p ps ih =>
    rw [List.foldl_cons, ih, List.isEmpty_cons, if_neg Bool.false_ne_true]
    split_ifs <;> rfl

/-- A running bound bounds every element that it has met. -/
theorem foldl_bound {ι α : Type} {r : α → α → Prop} (hrefl : ∀ {a}, r a a)
    (htrans : ∀ {a b c}, r a b → r b c → r a c) {op : α → α → α} (hl : ∀ a b, r (op a b) a)
    (hr : ∀ a b, r (op a b) b) (f : ι → α) (first : ι) (rest : List ι) :
    ∀ x ∈ first :: rest, r (rest.foldl (fun m x => op m (f x)) (f first)) (f x) := by
  induction rest using List.reverseRecOn with
  | nil =>
    intro x hx
    rw [List.mem_singleton.mp hx]
    exact hrefl
  | append_singleton rest last ih =>
    intro x hx
    rw [List.foldl_append, List.foldl_cons, List.foldl_nil]
    rcases List.mem_append.mp (List.cons_append ▸ hx) with hx | hx
    · exact htrans (hl _ _) (ih x hx)
    · rw [List.mem_singleton.mp hx]
      exact hr _ _

section Grid
variable {K : Type} [Field K] [LinearOrder K] [IsStrictOrderedRing K]

omit [Field K] [IsStrictOrderedRing K] in
theorem minimum_le (f : PointXYZ K → K) (first : PointXYZ K) (rest : List (PointXYZ K)) :
    ∀ p ∈ first :: rest, minimum f first rest ≤ f p :=
  foldl_bound (r := (· ≤ ·)) le_rfl (fun hab hbc => hab.trans hbc) min_le_left min_le_right
    f first rest

omit [Field K] [IsStrictOrderedRing K] in
theorem le_maximum (f : PointXYZ K → K) (first : PointXYZ K) (rest : List (PointXYZ K)) :
    ∀ p ∈ first :: rest, f p ≤ maximum f first rest :=
  foldl_bound (r := (· ≥ ·)) le_rfl (fun hab hbc => hbc.trans hab) le_max_left le_max_right
    f first rest

variable [FloorRing K]

/-- One axis: the index of a value between the ends is in range but at the far end of a whole
number of cells. -/
theorem index_range {resolution lo hi x : K} (hres : 0 < resolution) (hlo : lo ≤ x) (hhi : x ≤ hi) :
    0 ≤ ⌊(x - lo) / resolution⌋ ∧
      (⌊(x - lo) / resolution⌋ < ((⌈(hi - lo) / resolution⌉.toNat : ℕ) : ℤ) ↔
        x ≠ lo + (⌈(hi - lo) / resolution⌉.toNat : ℕ) * resolution) := by
  have hnonneg : 0 ≤ (hi - lo) / resolution := div_nonneg (by linarith) hres.le
  have hcells : ((⌈(hi - lo) / resolution⌉.toNat : ℕ) : ℤ) = ⌈(hi - lo) / resolution⌉ :=
    Int.toNat_of_nonneg (Int.ceil_nonneg hnonneg)
  have hle : (x - lo) / resolution ≤ (⌈(hi - lo) / resolution⌉ : ℤ) :=
    (div_le_div_of_nonneg_right (by linarith) hres.le).trans (Int.le_ceil _)
  refine ⟨Int.floor_nonneg.mpr (div_nonneg (by linarith) hres.le), ?_⟩
  rw [hcells, Int.floor_lt, ← Int.cast_natCast, hcells, hle.lt_iff_ne, ne_eq, ne_eq,
    div_eq_iff hres.ne', sub_eq_iff_eq_add']

omit [IsStrictOrderedRing K] in
theorem cell_eq_some_iff {resolution xMin yMin : K} {width height i j : ℕ} (hi : i < width)
    (hj : j < height) (p : PointXYZ K) :
    cell resolution xMin yMin width height p = some (i + j * width) ↔
      ⌊(p.x - xMin) / resolution⌋ = i ∧ ⌊(p.y - yMin) / resolution⌋ = j := by
  unfold cell
  dsimp only
  generalize ⌊(p.x - xMin) / resolution⌋ = a
  generalize ⌊(p.y - yMin) / resolution⌋ = b
  have hpos : 0 < width := by omega
  split_ifs with hin
  · obtain ⟨ha, ha', hb, hb'⟩ := hin
    rw [Option.some.injEq]
    constructor
    · intro heq
      have hmod := congrArg (· % width) heq
      have hdiv := congrArg (· / width) heq
      simp only [Nat.add_mul_mod_self_right, Nat.add_mul_div_right _ _ hpos] at hmod hdiv
      rw [Nat.mod_eq_of_lt (by omega), Nat.mod_eq_of_lt hi] at hmod
      rw [Nat.div_eq_of_lt (by omega), Nat.div_eq_of_lt hi] at hdiv
      omega
    · rintro ⟨rfl, rfl⟩
      rfl
  · constructor
    · intro h
      cases h
    · rintro ⟨rfl, rfl⟩
      exact absurd (by omega) hin

end Grid

/-- The last point is at the far end of both axes, and is not drawn. -/
def square : List (PointXYZ ℚ) := [⟨0, 0, 0⟩, ⟨0.4, 0.6, 0⟩, ⟨1, 1, 0⟩]

end Pcd2Pgm
end RtkLocalization
