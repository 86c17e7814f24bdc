import RtkLocalization.NonFiniteReturns
import RtkLocalization.TerrainScan

/-!
# The `int` arithmetic of the terrain filter

The model computes cells and bins with unbounded integers; the node uses `int`.
`GridSafe` says that on one cloud every conversion to `int`, every product and sum
and every cell index of a callback stays in range, so that the two agree.
`grid_arithmetic_iff` gives the condition on parameters and cloud. The statistics
pass needs none on its points: it limits them to the grid before it converts them.
The classification pass limits them by `range_max` only.
-/

namespace RtkLocalization
namespace PointCloudToLaserScan

open PyFloat Scatter Selection

def intMin : ℤ := -2147483648

def intMax : ℤ := 2147483647

def FitsInt (n : ℤ) : Prop := intMin ≤ n ∧ n ≤ intMax

instance (n : ℤ) : Decidable (FitsInt n) := inferInstanceAs (Decidable (_ ∧ _))

theorem fitsInt_of_le {n m : ℤ} (hn : 0 ≤ n) (hle : n ≤ m) (hm : FitsInt m) : FitsInt n := by
  unfold FitsInt intMin at *
  omega

/-! ### What the callback computes with `int` -/

section Arithmetic
variable {α : Type} [Add α] [Sub α] [Mul α] [Div α] [OfScientific α] [IsFinite α] [CppMath α]
  [LT α] [DecidableLT α]

/-- The points for which the statistics pass calls `to_cell_index`. -/
def EntersStatistics (cfg : Config α) (p : Point α) : Prop :=
  let processingRange :=
    cfg.terrainPlanarSize * CppMath.ofNat (cfg.terrainPlanarWidth / 2 + 1).toNat
  p.isFinite = true ∧ isfinite p.range = true ∧ ¬ processingRange < p.range ∧
    ¬ p.z < cfg.terrainMinRelZ - cfg.terrainDisRatioZ * p.range ∧
    ¬ cfg.terrainMaxRelZ + cfg.terrainDisRatioZ * p.range < p.z

/-- The points for which the classification pass does. -/
def EntersClassification (cfg : Config α) (p : Point α) : Prop :=
  p.isFinite = true ∧ isfinite p.range = true ∧ ¬ p.range < cfg.rangeMin ∧ ¬ cfg.rangeMax < p.range

/-- The value whose floor is converted. -/
def cellQuotient (cfg : Config α) (u : α) : α :=
  (u + cfg.terrainPlanarSize * 0.5) / cfg.terrainPlanarSize

def CoordinateSafe (cfg : Config α) (u : α) : Prop :=
  isfinite (cellQuotient cfg u) = true ∧ FitsInt (CppMath.floorInt (cellQuotient cfg u)) ∧
    FitsInt (cellCoordinate cfg u)

/-- `to_cell_index`; the product and the sum are reached for a cell of the grid. -/
structure IndexSafe (cfg : Config α) (p : Point α) : Prop where
  x : CoordinateSafe cfg p.x
  y : CoordinateSafe cfg p.y
  product : toCellIndex cfg p ≠ none → FitsInt (cfg.terrainPlanarWidth * cellCoordinate cfg p.x)
  index : toCellIndex cfg p ≠ none →
    FitsInt (cfg.terrainPlanarWidth * cellCoordinate cfg p.x + cellCoordinate cfg p.y) ∧
    0 ≤ cfg.terrainPlanarWidth * cellCoordinate cfg p.x + cellCoordinate cfg p.y ∧
    cfg.terrainPlanarWidth * cellCoordinate cfg p.x + cellCoordinate cfg p.y
      < cfg.terrainPlanarWidth * cfg.terrainPlanarWidth

/-- One turn of the neighbour loop of cell `c`. -/
def NeighbourSafe (cfg : Config α) (c : ℕ) (dx dy : ℤ) : Prop :=
  let nx := (c : ℤ) / cfg.terrainPlanarWidth + dx
  let ny := (c : ℤ) % cfg.terrainPlanarWidth + dy
  FitsInt nx ∧ FitsInt ny ∧
  (0 ≤ nx → nx < cfg.terrainPlanarWidth → 0 ≤ ny → ny < cfg.terrainPlanarWidth →
    FitsInt (nx * cfg.terrainPlanarWidth) ∧ FitsInt (nx * cfg.terrainPlanarWidth + ny) ∧
    0 ≤ nx * cfg.terrainPlanarWidth + ny ∧
    nx * cfg.terrainPlanarWidth + ny < cfg.terrainPlanarWidth * cfg.terrainPlanarWidth)

/-- The conversion of the bin of a confirmed cell. -/
def BinSafe (cfg : Config α) (p : Point α) : Prop :=
  isfinite ((p.angle - (emptyScan cfg).angleMin) / (emptyScan cfg).angleIncrement) = true ∧
    FitsInt (bin cfg p)

/-- Counters only grow, so their last value is the one to bound. -/
structure GridSafe (cfg : Config α) (cloud : List (Point α)) : Prop where
  cellNum : FitsInt (cfg.terrainPlanarWidth * cfg.terrainPlanarWidth)
  halfWidth : FitsInt (cfg.terrainPlanarWidth / 2 + 1)
  index : ∀ p ∈ cloud, EntersStatistics cfg p ∨ EntersClassification cfg p → IndexSafe cfg p
  neighbours : ∀ p ∈ cloud, ∀ c, statisticsCell cfg p = some c → cfg.terrainNeighborSpread = true →
    ∀ dx ∈ [-1, 0, 1], ∀ dy ∈ [-1, 0, 1], NeighbourSafe cfg c dx dy
  elevationCells : ∀ p ∈ cloud, ∀ c, statisticsCell cfg p = some c →
    ∀ n ∈ elevationCells cfg c, n < cfg.cellNum
  planarPointCount : ∀ n ∈ (statistics cfg cloud).planarPointCount, FitsInt n
  obstaclePointCount : ∀ o ∈ obstacles cfg cloud, FitsInt o.count
  bins : ∀ o ∈ obstacles cfg cloud, cfg.terrainMinObstaclePoints ≤ o.count →
    isfinite o.bestRange = true → InsideAngles cfg o.bestPoint → BinSafe cfg o.bestPoint

end Arithmetic

/-! ### Cells -/

section Cells
variable {α : Type} {cfg : Config α}

theorem width_cast (cfg : Config α) : (cfg.width : ℤ) = cfg.terrainPlanarWidth := by
  have h := cfg.terrainPlanarWidth_ge
  exact Int.toNat_of_nonneg (by omega)

theorem fitsInt_cellNum_iff (cfg : Config α) :
    FitsInt (cfg.terrainPlanarWidth * cfg.terrainPlanarWidth) ↔ cfg.terrainPlanarWidth ≤ 46340 := by
  have h := cfg.terrainPlanarWidth_ge
  unfold FitsInt intMin intMax
  constructor
  · rintro ⟨-, hle⟩
    by_contra hgt
    nlinarith
  · intro hle
    constructor <;> nlinarith

theorem rowMajor_lt {w i j : ℤ} (hi : 0 ≤ i) (hiw : i < w) (hj : 0 ≤ j) (hjw : j < w) :
    0 ≤ w * i ∧ w * i ≤ w * i + j ∧ w * i + j < w * w := by
  have hw : 0 < w := by omega
  refine ⟨Int.mul_nonneg hw.le hi, by omega, ?_⟩
  calc w * i + j < w * i + w := by omega
    _ = w * (i + 1) := by ring
    _ ≤ w * w := Int.mul_le_mul_of_nonneg_left (by omega) hw.le

theorem fitsInt_rowMajor {w i j : ℤ} (hw : FitsInt (w * w)) (hi : 0 ≤ i) (hiw : i < w) (hj : 0 ≤ j)
    (hjw : j < w) : FitsInt (w * i) ∧ FitsInt (w * i + j) := by
  obtain ⟨h0, hle, hlt⟩ := rowMajor_lt hi hiw hj hjw
  exact ⟨fitsInt_of_le h0 (by omega) hw, fitsInt_of_le (by omega) hlt.le hw⟩

theorem elevationCells_lt {c n : ℕ} (hc : c < cfg.cellNum) (hn : n ∈ elevationCells cfg c) :
    n < cfg.cellNum := by
  unfold elevationCells at hn
  split_ifs at hn
  · obtain ⟨dx, -, hn⟩ := List.mem_flatMap.mp hn
    obtain ⟨dy, -, hn⟩ := List.mem_filterMap.mp hn
    simp only at hn
    split_ifs at hn with hbounds
    obtain ⟨hnx, hnxw, hny, hnyw⟩ := hbounds
    obtain ⟨h0, hle, hlt⟩ := rowMajor_lt hnx hnxw hny hnyw
    rw [← Option.some.inj hn, mul_comm, Config.cellNum, Int.toNat_lt (h0.trans hle)]
    push_cast
    exact hlt
  · rw [List.mem_singleton.mp hn]
    exact hc

theorem neighbourSafe_of_lt (hw : FitsInt (cfg.terrainPlanarWidth * cfg.terrainPlanarWidth)) {c : ℕ}
    (hc : c < cfg.cellNum) {dx dy : ℤ} (hdx : -1 ≤ dx ∧ dx ≤ 1) (hdy : -1 ≤ dy ∧ dy ≤ 1) :
    NeighbourSafe cfg c dx dy := by
  have hle := (fitsInt_cellNum_iff cfg).mp hw
  have hge := cfg.terrainPlanarWidth_ge
  have hcell : (c : ℤ) < cfg.terrainPlanarWidth * cfg.terrainPlanarWidth := by
    rw [← width_cast]
    exact_mod_cast hc
  have hrow0 : 0 ≤ (c : ℤ) / cfg.terrainPlanarWidth := Int.ediv_nonneg (by omega) (by omega)
  have hrow : (c : ℤ) / cfg.terrainPlanarWidth < cfg.terrainPlanarWidth :=
    Int.ediv_lt_of_lt_mul (by omega) hcell
  have hcol0 : 0 ≤ (c : ℤ) % cfg.terrainPlanarWidth := Int.emod_nonneg _ (by omega)
  have hcol : (c : ℤ) % cfg.terrainPlanarWidth < cfg.terrainPlanarWidth :=
    Int.emod_lt_of_pos _ (by omega)
  unfold NeighbourSafe
  simp only
  generalize (c : ℤ) / cfg.terrainPlanarWidth = row at hrow0 hrow ⊢
  generalize (c : ℤ) % cfg.terrainPlanarWidth = col at hcol0 hcol ⊢
  refine ⟨?_, ?_, ?_⟩
  · unfold FitsInt intMin intMax
    omega
  · unfold FitsInt intMin intMax
    omega
  · intro hnx hnxw hny hnyw
    rw [mul_comm (row + dx)]
    obtain ⟨h0, hsum, hlt⟩ := rowMajor_lt hnx hnxw hny hnyw
    obtain ⟨hproduct, hnumber⟩ := fitsInt_rowMajor hw hnx hnxw hny hnyw
    exact ⟨hproduct, hnumber, h0.trans hsum, hlt⟩

end Cells

section Index
variable {α : Type} [Add α] [Mul α] [Div α] [OfScientific α] [CppMath α] {cfg : Config α}

theorem toCellIndex_ne_none_iff (p : Point α) :
    toCellIndex cfg p ≠ none ↔
      (0 ≤ cellCoordinate cfg p.x ∧ cellCoordinate cfg p.x < cfg.terrainPlanarWidth) ∧
      0 ≤ cellCoordinate cfg p.y ∧ cellCoordinate cfg p.y < cfg.terrainPlanarWidth := by
  unfold toCellIndex
  simp only
  split_ifs with hout
  · refine iff_of_false (fun h => h rfl) ?_
    omega
  · refine iff_of_true nofun ?_
    omega

theorem toCellIndex_lt {p : Point α} {c : ℕ} (h : toCellIndex cfg p = some c) :
    c < cfg.cellNum := by
  have hin := (toCellIndex_ne_none_iff p).mp (by rw [h]; exact nofun)
  unfold toCellIndex at h
  simp only at h
  split_ifs at h
  obtain ⟨⟨hx, hxw⟩, hy, hyw⟩ := hin
  obtain ⟨-, -, hlt⟩ := rowMajor_lt hx hxw hy hyw
  rw [← Option.some.inj h, Config.cellNum]
  zify
  rw [Int.toNat_of_nonneg hx, Int.toNat_of_nonneg hy, width_cast]
  exact hlt

theorem indexSafe_iff [IsFinite α] (hw : FitsInt (cfg.terrainPlanarWidth * cfg.terrainPlanarWidth))
    (p : Point α) : IndexSafe cfg p ↔ CoordinateSafe cfg p.x ∧ CoordinateSafe cfg p.y := by
  constructor
  · intro h
    exact ⟨h.x, h.y⟩
  · rintro ⟨hx, hy⟩
    refine ⟨hx, hy, ?_, ?_⟩
    · intro hcell
      obtain ⟨⟨hx0, hxw⟩, hy0, hyw⟩ := (toCellIndex_ne_none_iff p).mp hcell
      exact (fitsInt_rowMajor hw hx0 hxw hy0 hyw).1
    · intro hcell
      obtain ⟨⟨hx0, hxw⟩, hy0, hyw⟩ := (toCellIndex_ne_none_iff p).mp hcell
      obtain ⟨h0, hsum, hlt⟩ := rowMajor_lt hx0 hxw hy0 hyw
      exact ⟨(fitsInt_rowMajor hw hx0 hxw hy0 hyw).2, h0.trans hsum, hlt⟩

end Index

/-! ### Conversions -/

/-- Half a cell to the right of `u` lies within the multiples of the cell size that
`int` can count, less those that `half_width` adds. -/
def CoordinateInRange (cfg : Config (PyFloat ℝ)) (u : PyFloat ℝ) : Prop :=
  ∃ s x : ℝ, cfg.terrainPlanarSize = fin s ∧ u = fin x ∧
    (intMin : ℝ) * s ≤ x + s * 0.5 ∧
    x + s * 0.5 < ((intMax + 1 - cfg.terrainPlanarWidth / 2 : ℤ) : ℝ) * s

section Conversions
variable {cfg : Config (PyFloat ℝ)}

theorem exists_planarSize (hsize : ¬ cfg.terrainPlanarSize ≤ 0.0) {u : PyFloat ℝ}
    (h : isfinite (cellQuotient cfg u) = true) : ∃ s, 0 < s ∧ cfg.terrainPlanarSize = fin s := by
  unfold cellQuotient at h
  rw [PyFloat.zero_literal] at hsize
  generalize cfg.terrainPlanarSize = size at hsize h ⊢
  cases size with
  | fin s => exact ⟨s, lt_of_not_ge fun hle => hsize ((fin_le_fin s 0).mpr hle), rfl⟩
  | inf =>
    -- nothing divided by infinity is finite once infinity has been added
    have hhalf : (inf : PyFloat ℝ) * 0.5 = inf := by
      show PyFloat.mulInf (0.5 : ℝ) = inf
      exact if_pos (by norm_num)
    rw [hhalf] at h
    cases u <;> cases h
  | neginf => exact absurd rfl hsize
  | nan => cases u <;> cases h

theorem cellQuotient_of_fin {s : ℝ} (hs : 0 < s) (hsize : cfg.terrainPlanarSize = fin s) (x : ℝ) :
    cellQuotient cfg (fin x) = fin ((x + s * 0.5) / s) := by
  have hhalf : (fin s : PyFloat ℝ) * 0.5 = fin (s * 0.5) := rfl
  rw [cellQuotient, hsize, hhalf, fin_add_fin, fin_div_fin _ hs.ne']

theorem coordinateSafe_of_fin {s : ℝ} (hs : 0 < s) (hsize : cfg.terrainPlanarSize = fin s) (x : ℝ) :
    CoordinateSafe cfg (fin x) ↔
      (intMin : ℝ) * s ≤ x + s * 0.5 ∧
      x + s * 0.5 < ((intMax + 1 - cfg.terrainPlanarWidth / 2 : ℤ) : ℝ) * s := by
  have hge := cfg.terrainPlanarWidth_ge
  have hfloor : cellCoordinate cfg (fin x)
      = ⌊(x + s * 0.5) / s⌋ + cfg.terrainPlanarWidth / 2 := by
    show CppMath.floorInt (cellQuotient cfg (fin x)) + _ = _
    rw [cellQuotient_of_fin hs hsize]
    rfl
  have hconvert : CppMath.floorInt (cellQuotient cfg (fin x)) = ⌊(x + s * 0.5) / s⌋ := by
    rw [cellQuotient_of_fin hs hsize]
    rfl
  have hfin : isfinite (cellQuotient cfg (fin x)) = true := by
    rw [cellQuotient_of_fin hs hsize]
    rfl
  rw [← le_div_iff₀ hs, ← div_lt_iff₀ hs, ← Int.le_floor, ← Int.floor_lt, CoordinateSafe, hfloor,
    hconvert]
  generalize ⌊(x + s * 0.5) / s⌋ = n
  unfold FitsInt intMin intMax
  constructor
  · rintro ⟨-, hfits, hsum⟩
    omega
  · rintro ⟨hlo, hhi⟩
    exact ⟨hfin, by omega, by omega⟩

theorem coordinateSafe_iff (hsize : ¬ cfg.terrainPlanarSize ≤ 0.0) (x : ℝ) :
    CoordinateSafe cfg (fin x) ↔ CoordinateInRange cfg (fin x) := by
  constructor
  · intro h
    obtain ⟨s, hs, hfin⟩ := exists_planarSize hsize h.1
    obtain ⟨hlo, hhi⟩ := (coordinateSafe_of_fin hs hfin x).mp h
    exact ⟨s, x, hfin, rfl, hlo, hhi⟩
  · rintro ⟨s, x', hfin, hx, hlo, hhi⟩
    obtain rfl := PyFloat.fin.inj hx
    rw [hfin, PyFloat.zero_literal, fin_le_fin, not_le] at hsize
    exact (coordinateSafe_of_fin hsize hfin x).mpr ⟨hlo, hhi⟩

/-- Within the processing range a coordinate is at most half the grid and one cell
away. -/
theorem coordinateInRange_of_le {s x : ℝ} (hs : 0 < s) (hsize : cfg.terrainPlanarSize = fin s)
    (hw : cfg.terrainPlanarWidth ≤ 46340)
    (hx : |x| ≤ s * ((cfg.terrainPlanarWidth / 2 + 1 : ℤ) : ℝ)) : CoordinateInRange cfg (fin x) := by
  have hge := cfg.terrainPlanarWidth_ge
  obtain ⟨hlo, hhi⟩ := abs_le.mp hx
  have hhalf : s * 0.5 = s / 2 := by
    norm_num
    ring
  have hcount : ((cfg.terrainPlanarWidth / 2 + 1 : ℤ) : ℝ) ≤ 23171 := by
    exact_mod_cast (show cfg.terrainPlanarWidth / 2 + 1 ≤ 23171 by omega)
  have hleft : (2147460478 : ℝ) ≤ ((intMax + 1 - cfg.terrainPlanarWidth / 2 : ℤ) : ℝ) := by
    unfold intMax
    exact_mod_cast (show (2147460478 : ℤ) ≤ 2147483647 + 1 - cfg.terrainPlanarWidth / 2 by omega)
  have hreach : s * ((cfg.terrainPlanarWidth / 2 + 1 : ℤ) : ℝ) ≤ s * 23171 :=
    mul_le_mul_of_nonneg_left hcount hs.le
  have hroom : 2147460478 * s ≤ ((intMax + 1 - cfg.terrainPlanarWidth / 2 : ℤ) : ℝ) * s :=
    mul_le_mul_of_nonneg_right hleft hs.le
  have hmin : (intMin : ℝ) = -2147483648 := by norm_num [intMin]
  refine ⟨s, x, hsize, rfl, ?_, ?_⟩
  · rw [hhalf, hmin]
    linarith
  · rw [hhalf]
    linarith

theorem coordinateInRange_of_statistics {s : ℝ} (hs : 0 < s)
    (hsize : cfg.terrainPlanarSize = fin s) (hw : cfg.terrainPlanarWidth ≤ 46340)
    {p : Point (PyFloat ℝ)} (h : EntersStatistics cfg p) :
    CoordinateInRange cfg p.x ∧ CoordinateInRange cfg p.y := by
  have hge := cfg.terrainPlanarWidth_ge
  obtain ⟨hfin, -, hrange, -, -⟩ := h
  obtain ⟨x, y, z, rfl⟩ := Point.exists_fin_of_isFinite hfin
  have hcast : (((cfg.terrainPlanarWidth / 2 + 1).toNat : ℕ) : ℝ)
      = ((cfg.terrainPlanarWidth / 2 + 1 : ℤ) : ℝ) := by
    exact_mod_cast Int.toNat_of_nonneg (show 0 ≤ cfg.terrainPlanarWidth / 2 + 1 by omega)
  have hle : Planar.hypot x y ≤ s * ((cfg.terrainPlanarWidth / 2 + 1 : ℤ) : ℝ) := by
    rw [hsize] at hrange
    rw [← hcast]
    by_contra hlt
    exact hrange ((fin_lt_fin _ _).mpr (not_le.mp hlt))
  have hx : |x| ≤ Planar.hypot x y := Planar.abs_le_hypot_left x y
  have hy : |y| ≤ Planar.hypot x y := Planar.abs_le_hypot_right x y
  exact ⟨coordinateInRange_of_le hs hsize hw (hx.trans hle),
    coordinateInRange_of_le hs hsize hw (hy.trans hle)⟩

end Conversions

/-! ### Bins -/

/-- From `angle_min` to the direction of the point there are at most as many steps as
`int` can count; an infinite step leaves the bin 0. -/
def BinInRange (cfg : Config (PyFloat ℝ)) (p : Point (PyFloat ℝ)) : Prop :=
  ∃ a t : ℝ, cfg.angleMin = fin a ∧ p.angle = fin t ∧
    (isinf cfg.angleIncrement = true ∨
      ∃ i : ℝ, cfg.angleIncrement = fin i ∧
        (0 < i ∧ t - a < ((intMax + 1 : ℤ) : ℝ) * i ∨
          i < 0 ∧ ((intMin - 1 : ℤ) : ℝ) * i > t - a))

section Bins
variable {cfg : Config (PyFloat ℝ)} {p : Point (PyFloat ℝ)}

theorem exists_angleMin {t : ℝ} (ht : p.angle = fin t) (hin : InsideAngles cfg p)
    (h : BinSafe cfg p) : ∃ a, cfg.angleMin = fin a ∧ a ≤ t := by
  have hstart : ¬ p.angle < cfg.angleMin := hin.1
  have hfin : isfinite ((p.angle - cfg.angleMin) / cfg.angleIncrement) = true := h.1
  rw [ht] at hstart hfin
  generalize cfg.angleMin = first at hstart hfin ⊢
  generalize cfg.angleIncrement = step at hfin
  cases first with
  | fin a =>
    rw [fin_lt_fin, not_lt] at hstart
    exact ⟨a, rfl, hstart⟩
  | inf => exact absurd (fin_lt_inf t) hstart
  | neginf =>
    have hdiff : (fin t : PyFloat ℝ) - neginf = inf := rfl
    rw [hdiff] at hfin
    cases step with
    | fin i =>
      have hquot : (inf : PyFloat ℝ) / fin i = if i < 0 then neginf else inf := rfl
      rw [hquot] at hfin
      split_ifs at hfin
    | inf => cases hfin
    | neginf => cases hfin
    | nan => cases hfin
  | nan => cases hfin

theorem fitsInt_trunc_iff {d i : ℝ} (hd : 0 ≤ d) (hi : i ≠ 0) :
    FitsInt (CppMath.truncInt (fin (d / i))) ↔
      0 < i ∧ d < ((intMax + 1 : ℤ) : ℝ) * i ∨ i < 0 ∧ ((intMin - 1 : ℤ) : ℝ) * i > d := by
  rcases lt_or_gt_of_ne hi with hneg | hpos
  · -- a negative step counts downwards and the conversion rounds up
    have hquot : d / i ≤ 0 := div_nonpos_of_nonneg_of_nonpos hd hneg.le
    have htrunc : CppMath.truncInt (fin (d / i)) = ⌈d / i⌉ := by
      show (if 0 ≤ d / i then ⌊d / i⌋ else ⌈d / i⌉) = ⌈d / i⌉
      split_ifs with hzero
      · rw [le_antisymm hquot hzero, Int.floor_zero, Int.ceil_zero]
      · rfl
    have hle : ⌈d / i⌉ ≤ 0 := Int.ceil_le.mpr (by exact_mod_cast hquot)
    have hlt : ((intMin - 1 : ℤ) : ℝ) * i > d ↔ intMin - 1 < ⌈d / i⌉ := by
      rw [Int.lt_ceil, lt_div_iff_of_neg hneg]
    rw [htrunc, hlt]
    unfold FitsInt intMax
    constructor
    · rintro ⟨hmin, -⟩
      exact Or.inr ⟨hneg, by omega⟩
    · rintro (⟨hpos, -⟩ | ⟨-, hmin⟩)
      · exact absurd hpos hneg.not_gt
      · omega
  · have hquot : 0 ≤ d / i := div_nonneg hd hpos.le
    have htrunc : CppMath.truncInt (fin (d / i)) = ⌊d / i⌋ := if_pos hquot
    have hge : 0 ≤ ⌊d / i⌋ := Int.floor_nonneg.mpr hquot
    have hlt : d < ((intMax + 1 : ℤ) : ℝ) * i ↔ ⌊d / i⌋ < intMax + 1 := by
      rw [Int.floor_lt, div_lt_iff₀ hpos]
    rw [htrunc, hlt]
    unfold FitsInt intMin
    constructor
    · rintro ⟨-, hmax⟩
      exact Or.inl ⟨hpos, by omega⟩
    · rintro (⟨-, hmax⟩ | ⟨hneg, -⟩)
      · omega
      · exact absurd hneg hpos.not_gt

theorem quotient_fits_iff {d : ℝ} (hd : 0 ≤ d) (step : PyFloat ℝ) :
    isfinite (fin d / step) = true ∧ FitsInt (CppMath.truncInt (fin d / step)) ↔
      isinf step = true ∨ ∃ i : ℝ, step = fin i ∧
        (0 < i ∧ d < ((intMax + 1 : ℤ) : ℝ) * i ∨ i < 0 ∧ ((intMin - 1 : ℤ) : ℝ) * i > d) := by
  have hzero : FitsInt (CppMath.truncInt (fin (0 : ℝ))) := by
    have htrunc : CppMath.truncInt (fin (0 : ℝ)) = ⌊(0 : ℝ)⌋ := if_pos le_rfl
    rw [htrunc, Int.floor_zero]
    decide
  cases step with
  | fin i =>
    rcases eq_or_ne i 0 with rfl | hi
    · -- a quotient by zero is infinite, or NaN
      have hquot : (fin d : PyFloat ℝ) / fin 0 = PyFloat.mulInf d := if_pos rfl
      refine iff_of_false ?_ ?_
      · rw [hquot, PyFloat.mulInf]
        split_ifs <;> simp
      · rintro (hinf | ⟨i, hi, ⟨hpos, -⟩ | ⟨hneg, -⟩⟩)
        · cases hinf
        · cases hi
          exact lt_irrefl 0 hpos
        · cases hi
          exact lt_irrefl 0 hneg
    · rw [fin_div_fin _ hi, fitsInt_trunc_iff hd hi]
      constructor
      · rintro ⟨-, hfits⟩
        exact Or.inr ⟨i, rfl, hfits⟩
      · rintro (hinf | ⟨i', hi', hfits⟩)
        · cases hinf
        · cases hi'
          exact ⟨rfl, hfits⟩
  | inf => exact iff_of_true ⟨rfl, hzero⟩ (Or.inl rfl)
  | neginf => exact iff_of_true ⟨rfl, hzero⟩ (Or.inl rfl)
  | nan =>
    refine iff_of_false ?_ ?_
    · rintro ⟨hfin, -⟩
      cases hfin
    · rintro (hinf | ⟨i, hi, -⟩)
      · cases hinf
      · cases hi

theorem binSafe_iff_of_fin {a t : ℝ} (ha : cfg.angleMin = fin a) (ht : p.angle = fin t)
    (hle : a ≤ t) : BinSafe cfg p ↔
      isinf cfg.angleIncrement = true ∨ ∃ i : ℝ, cfg.angleIncrement = fin i ∧
        (0 < i ∧ t - a < ((intMax + 1 : ℤ) : ℝ) * i ∨
          i < 0 ∧ ((intMin - 1 : ℤ) : ℝ) * i > t - a) := by
  show isfinite ((p.angle - cfg.angleMin) / cfg.angleIncrement) = true ∧
    FitsInt (CppMath.truncInt ((p.angle - cfg.angleMin) / cfg.angleIncrement)) ↔ _
  rw [ht, ha, fin_sub_fin]
  exact quotient_fits_iff (sub_nonneg.mpr hle) cfg.angleIncrement

theorem binSafe_iff (hp : p.isFinite = true) (hin : InsideAngles cfg p) :
    BinSafe cfg p ↔ BinInRange cfg p := by
  obtain ⟨t, ht⟩ := exists_angle_of_isFinite hp
  constructor
  · intro h
    obtain ⟨a, ha, hle⟩ := exists_angleMin ht hin h
    exact ⟨a, t, ha, ht, (binSafe_iff_of_fin ha ht hle).mp h⟩
  · rintro ⟨a, t', ha, ht', hstep⟩
    exact (binSafe_iff_of_fin ha ht' ((angleMin_le_iff ha ht').mp hin.1)).mpr hstep

end Bins

/-! ### The condition -/

structure GridFits (cfg : Config (PyFloat ℝ)) (cloud : List (Point (PyFloat ℝ))) : Prop where
  width : cfg.terrainPlanarWidth ≤ 46340
  planarSize : ∀ p ∈ cloud, EntersStatistics cfg p → isfinite cfg.terrainPlanarSize = true
  classified : ∀ p ∈ cloud, EntersClassification cfg p →
    CoordinateInRange cfg p.x ∧ CoordinateInRange cfg p.y
  counted : ∀ c < cfg.cellNum, ((naming (statisticsCell cfg) cloud c).length : ℤ) ≤ intMax
  obstacles : ∀ c < cfg.cellNum, ((obstaclePoints cfg cloud c).length : ℤ) ≤ intMax
  bins : ∀ c < cfg.cellNum, cfg.terrainMinObstaclePoints ≤ (obstaclePoints cfg cloud c).length →
    ∀ p, FirstLeast Point.range p (obstaclePoints cfg cloud c) → InsideAngles cfg p →
      BinInRange cfg p

section Condition
variable {cfg : Config (PyFloat ℝ)} {cloud : List (Point (PyFloat ℝ))}

theorem fitsInt_count_iff (n : ℕ) : FitsInt n ↔ (n : ℤ) ≤ intMax := by
  unfold FitsInt intMin
  omega

theorem planarPointCount_fits_iff :
    (∀ n ∈ (statistics cfg cloud).planarPointCount, FitsInt n) ↔
      ∀ c < cfg.cellNum, ((naming (statisticsCell cfg) cloud c).length : ℤ) ≤ intMax := by
  simp only [planarPointCount_eq, List.forall_mem_map, List.mem_range, fitsInt_count_iff]

theorem obstaclePointCount_fits_iff :
    (∀ o ∈ obstacles cfg cloud, FitsInt o.count) ↔
      ∀ c < cfg.cellNum, ((obstaclePoints cfg cloud c).length : ℤ) ≤ intMax := by
  have hcount : ∀ c, ((obstaclePoints cfg cloud c).foldl (fun o p => o.add p) noObstacle).count
      = (obstaclePoints cfg cloud c).length := count_cellObstacle cfg cloud
  simp only [obstacles_eq, List.forall_mem_map, List.mem_range, hcount, fitsInt_count_iff]

theorem mem_obstacles_iff (o : CellObstacle (PyFloat ℝ)) :
    o ∈ obstacles cfg cloud ↔ ∃ c < cfg.cellNum, cellObstacle cfg cloud c = o := by
  simp only [obstacles_eq, List.mem_map, List.mem_range]
  rfl

theorem isFinite_of_mem_obstaclePoints {c : ℕ} {p : Point (PyFloat ℝ)}
    (h : p ∈ obstaclePoints cfg cloud c) : p.isFinite = true :=
  (obstacleCell_some ((mem_naming _).mp h).2).1

theorem bins_iff :
    (∀ o ∈ obstacles cfg cloud, cfg.terrainMinObstaclePoints ≤ o.count →
      isfinite o.bestRange = true → InsideAngles cfg o.bestPoint → BinSafe cfg o.bestPoint) ↔
    ∀ c < cfg.cellNum, cfg.terrainMinObstaclePoints ≤ (obstaclePoints cfg cloud c).length →
      ∀ p, FirstLeast Point.range p (obstaclePoints cfg cloud c) → InsideAngles cfg p →
        BinInRange cfg p := by
  constructor
  · intro h c hc hcount p hp hin
    obtain ⟨hrange, hpoint⟩ := cellObstacle_of_firstLeast cfg cloud hp
    have hsafe := h _ ((mem_obstacles_iff _).mpr ⟨c, hc, rfl⟩)
    rw [count_cellObstacle, hrange, hpoint] at hsafe
    exact (binSafe_iff (isFinite_of_mem_obstaclePoints hp.least.1) hin).mp
      (hsafe hcount (isfinite_range_of_mem cfg cloud hp.least.1) hin)
  · intro h o ho hcount _ hin
    obtain ⟨c, hc, rfl⟩ := (mem_obstacles_iff o).mp ho
    rw [count_cellObstacle] at hcount
    obtain ⟨p, hp⟩ := exists_firstLeast_of_count cfg cloud hcount
    rw [(cellObstacle_of_firstLeast cfg cloud hp).2] at hin ⊢
    exact (binSafe_iff (isFinite_of_mem_obstaclePoints hp.least.1) hin).mpr (h c hc hcount p hp hin)

theorem statisticsCell_lt {p : Point (PyFloat ℝ)} {c : ℕ} (h : statisticsCell cfg p = some c) :
    c < cfg.cellNum :=
  toCellIndex_lt (statisticsCell_some h).2

theorem coordinatesSafe_iff (hsize : ¬ cfg.terrainPlanarSize ≤ 0.0) {p : Point (PyFloat ℝ)}
    (hp : p.isFinite = true) :
    CoordinateSafe cfg p.x ∧ CoordinateSafe cfg p.y ↔
      CoordinateInRange cfg p.x ∧ CoordinateInRange cfg p.y := by
  obtain ⟨x, y, z, rfl⟩ := Point.exists_fin_of_isFinite hp
  exact and_congr (coordinateSafe_iff hsize x) (coordinateSafe_iff hsize y)

theorem gridSafe_iff (hsize : ¬ cfg.terrainPlanarSize ≤ 0.0) :
    GridSafe cfg cloud ↔ GridFits cfg cloud := by
  constructor
  · rintro ⟨hcells, -, hindex, -, -, hplanar, hobstacle, hbins⟩
    refine ⟨(fitsInt_cellNum_iff cfg).mp hcells, ?_, ?_, planarPointCount_fits_iff.mp hplanar,
      obstaclePointCount_fits_iff.mp hobstacle, bins_iff.mp hbins⟩
    · intro p hp henters
      obtain ⟨s, -, hs⟩ := exists_planarSize hsize (hindex p hp (Or.inl henters)).x.1
      rw [hs]
      rfl
    · intro p hp henters
      rw [← coordinatesSafe_iff hsize henters.1]
      exact (indexSafe_iff hcells p).mp (hindex p hp (Or.inr henters))
  · rintro ⟨hwidth, hfinite, hclassified, hplanar, hobstacle, hbins⟩
    have hcells := (fitsInt_cellNum_iff cfg).mpr hwidth
    refine ⟨hcells, ?_, ?_, ?_, ?_, planarPointCount_fits_iff.mpr hplanar,
      obstaclePointCount_fits_iff.mpr hobstacle, bins_iff.mpr hbins⟩
    · have hge := cfg.terrainPlanarWidth_ge
      unfold FitsInt intMin intMax
      omega
    · rintro p hp (hstatistics | hclassification)
      · obtain ⟨s, hs⟩ := exists_fin_of_isfinite (hfinite p hp hstatistics)
        have hpos : 0 < s := by
          rwa [hs, PyFloat.zero_literal, fin_le_fin, not_le] at hsize
        rw [indexSafe_iff hcells, coordinatesSafe_iff hsize hstatistics.1]
        exact coordinateInRange_of_statistics hpos hs hwidth hstatistics
      · rw [indexSafe_iff hcells, coordinatesSafe_iff hsize hclassification.1]
        exact hclassified p hp hclassification
    · intro p _ c hc _ dx hdx dy hdy
      simp only [List.mem_cons, List.not_mem_nil, or_false] at hdx hdy
      exact neighbourSafe_of_lt hcells (statisticsCell_lt hc) (by omega) (by omega)
    · intro p _ c hc n hn
      exact elevationCells_lt (statisticsCell_lt hc) hn

end Condition

theorem not_planarSize_le (p : Parameters (PyFloat ℝ)) :
    ¬ (Config.ofParameters p).terrainPlanarSize ≤ 0.0 := by
  show ¬ (if p.terrainPlanarSize ≤ 0.0 then 0.2 else p.terrainPlanarSize) ≤ 0.0
  split_ifs with h
  · rw [PyFloat.zero_literal]
    exact fun hle => absurd ((fin_le_fin _ _).mp hle) (by norm_num)
  · exact h

noncomputable def farConfig : Config (PyFloat ℝ) :=
  Config.ofParameters { sceneParameters with rangeMax := 1.7976931348623157e308 }

theorem terrainPlanarSize_farConfig : farConfig.terrainPlanarSize = fin 0.2 :=
  terrainPlanarSize_ofParameters rfl

/-- `2^40`, a `float`, in metres. -/
noncomputable def farPoint : Point (PyFloat ℝ) := finitePoint 1099511627776 0 0

theorem farPoint_entersClassification : EntersClassification farConfig farPoint := by
  have hrange : farPoint.range = fin 1099511627776 :=
    congrArg fin (hypot_zero_right (by norm_num))
  refine ⟨rfl, ?_, ?_, ?_⟩
  · rw [hrange]
    rfl
  · rw [hrange]
    show ¬ (fin _ : PyFloat ℝ) < 0.0
    rw [PyFloat.zero_literal, fin_lt_fin]
    norm_num
  · rw [hrange]
    show ¬ (fin _ : PyFloat ℝ) < fin _
    rw [fin_lt_fin]
    norm_num

end PointCloudToLaserScan
end RtkLocalization
