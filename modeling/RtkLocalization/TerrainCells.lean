import RtkLocalization.Lib.Scatter
import RtkLocalization.Lib.Selection
import RtkLocalization.PointCloudToLaserScan

/-!
# What the terrain passes leave in a cell

Each pass is a loop over the cloud that updates cells; read cell by cell it is a
fold over the points that name the cell (`planarPointCount_eq`,
`planarPointElev_eq`, `obstacles_eq`). The three arrays of a cell are therefore
decided by the points in the block of cells around it (`terrain_cell_local`),
whatever the numbers do: nothing here is assumed of the arithmetic.
-/

namespace RtkLocalization
namespace PointCloudToLaserScan

open Scatter

section Passes
variable {α : Type} [Add α] [Sub α] [Mul α] [Div α] [OfScientific α] [IsFinite α] [CppMath α]
  [LT α] [DecidableLT α]

def elevationTargets (cfg : Config α) (p : Point α) : List ℕ :=
  match statisticsCell cfg p with
  | none => []
  | some c => elevationCells cfg c

def elevationsOf (cfg : Config α) (cloud : List (Point α)) (c : ℕ) : List α :=
  cloud.flatMap fun p => ((elevationTargets cfg p).filter (· = c)).map fun _ => p.z

theorem planarPointCount_eq (cfg : Config α) (cloud : List (Point α)) :
    (statistics cfg cloud).planarPointCount
      = (List.range cfg.cellNum).map fun c => (naming (statisticsCell cfg) cloud c).length := by
  have hloop : (statistics cfg cloud).planarPointCount
      = scatter (statisticsCell cfg) (fun _ n => n + 1) (List.replicate cfg.cellNum 0) cloud := by
    refine (List.foldl_hom Statistics.planarPointCount ?_).symm
    intro s p
    unfold statisticsStep
    cases statisticsCell cfg p with
    | none => rfl
    | some c => rfl
  rw [hloop, scatter_replicate]
  apply List.map_congr_left
  intro c _
  have hcount : ∀ (ps : List (Point α)) (n : ℕ), ps.foldl (fun n _ => n + 1) n = n + ps.length := by
    intro ps
    induction ps with
    | nil => exact fun n => rfl
    | cons p ps ih =>
      intro n
      rw [List.foldl_cons, ih, List.length_cons]
      omega
  rw [hcount, Nat.zero_add]

theorem planarPointElev_eq (cfg : Config α) (cloud : List (Point α)) :
    (statistics cfg cloud).planarPointElev
      = (List.range cfg.cellNum).map (elevationsOf cfg cloud) := by
  -- one update per pair of a point and a cell it is added to
  have hloop : (statistics cfg cloud).planarPointElev
      = scatter (fun q : ℕ × α => some q.1) (fun q elev => elev ++ [q.2])
          (List.replicate cfg.cellNum [])
          (cloud.flatMap fun p => (elevationTargets cfg p).map fun n => (n, p.z)) := by
    rw [scatter, List.foldl_flatMap]
    refine (List.foldl_hom Statistics.planarPointElev ?_).symm
    intro s p
    unfold statisticsStep elevationTargets
    cases statisticsCell cfg p with
    | none => rfl
    | some c => exact (List.foldl_map ..)
  rw [hloop, scatter_replicate]
  apply List.map_congr_left
  intro c _
  have hpush : ∀ (qs : List (ℕ × α)) (elev : List α),
      qs.foldl (fun elev q => elev ++ [q.2]) elev = elev ++ qs.map Prod.snd := by
    intro qs
    induction qs with
    | nil => exact fun elev => (List.append_nil elev).symm
    | cons q qs ih =>
      intro elev
      rw [List.foldl_cons, ih, List.map_cons, List.append_assoc, List.singleton_append]
  rw [hpush, List.nil_append, naming, elevationsOf, List.filter_flatMap, List.map_flatMap]
  simp [List.filter_map, Function.comp_def]

theorem planarGround_eq (cfg : Config α) (cloud : List (Point α)) :
    planarGround cfg (statistics cfg cloud)
      = (List.range cfg.cellNum).map fun c => groundZ cfg (elevationsOf cfg cloud c) := by
  rw [planarGround, planarPointElev_eq, List.map_map]
  rfl

/-- The points classified as obstacles in cell `c`. -/
def obstaclePoints (cfg : Config α) (cloud : List (Point α)) (c : ℕ) : List (Point α) :=
  let s := statistics cfg cloud
  naming (obstacleCell cfg s.planarPointCount (planarGround cfg s)) cloud c

theorem obstacles_eq (cfg : Config α) (cloud : List (Point α)) :
    obstacles cfg cloud = (List.range cfg.cellNum).map fun c =>
      (obstaclePoints cfg cloud c).foldl (fun o p => o.add p) noObstacle :=
  scatter_replicate _ CellObstacle.add cfg.cellNum noObstacle cloud

end Passes

/-! ### A cell sees its block -/

section Block
variable {α : Type}

/-- The cells of the 3x3 block around `c`; `c` alone without neighbour spread. -/
def inBlock (cfg : Config α) (c d : ℕ) : Bool :=
  if cfg.terrainNeighborSpread then
    decide (|((d / cfg.width : ℕ) : ℤ) - (c / cfg.width : ℕ)| ≤ 1 ∧
      |((d % cfg.width : ℕ) : ℤ) - (c % cfg.width : ℕ)| ≤ 1)
  else decide (d = c)

theorem inBlock_self (cfg : Config α) (c : ℕ) : inBlock cfg c c = true := by
  unfold inBlock
  split_ifs
  · simp
  · simp

theorem width_pos (cfg : Config α) : 0 < cfg.width := by
  have h := cfg.terrainPlanarWidth_ge
  unfold Config.width
  omega

/-- A point spreads its height only over the block around its cell: the index that
is rebuilt from a neighbour's row and column has that row and column. -/
theorem inBlock_of_mem_elevationCells {cfg : Config α} {c d : ℕ} (h : c ∈ elevationCells cfg d) :
    inBlock cfg c d = true := by
  unfold elevationCells at h
  unfold inBlock
  split_ifs at h ⊢
  · obtain ⟨dx, hdx, h⟩ := List.mem_flatMap.mp h
    obtain ⟨dy, hdy, h⟩ := List.mem_filterMap.mp h
    simp only at h
    split_ifs at h with hbounds
    obtain ⟨hnx, hnxw, hny, hnyw⟩ := hbounds
    have hc := Option.some.inj h
    generalize hx : ((d / cfg.width : ℕ) : ℤ) + dx = nx at hnx hnxw hc
    generalize hy : ((d % cfg.width : ℕ) : ℤ) + dy = ny at hny hnyw hc
    obtain ⟨i, rfl⟩ := Int.eq_ofNat_of_zero_le hnx
    obtain ⟨j, rfl⟩ := Int.eq_ofNat_of_zero_le hny
    have hj : j < cfg.width := by exact_mod_cast hnyw
    have hcell : c = i * cfg.width + j := by
      rw [← hc]
      exact Int.toNat_natCast _
    have hrow : c / cfg.width = i := by
      rw [hcell, Nat.add_comm, Nat.add_mul_div_right _ _ (width_pos cfg), Nat.div_eq_of_lt hj,
        Nat.zero_add]
    have hcol : c % cfg.width = j := by
      rw [hcell, Nat.add_comm, Nat.add_mul_mod_self_right, Nat.mod_eq_of_lt hj]
    have hdx' : -1 ≤ dx ∧ dx ≤ 1 := by
      simp only [List.mem_cons, List.not_mem_nil, or_false] at hdx
      omega
    have hdy' : -1 ≤ dy ∧ dy ≤ 1 := by
      simp only [List.mem_cons, List.not_mem_nil, or_false] at hdy
      omega
    rw [decide_eq_true_eq, hrow, hcol, abs_le, abs_le]
    omega
  · rw [decide_eq_true_eq]
    exact (List.mem_singleton.mp h).symm

end Block

section Local
variable {α : Type} [Add α] [Mul α] [Div α] [OfScientific α] [IsFinite α] [CppMath α]

/-- A finite point in a cell of the block around `c`. -/
def fallsInBlock (cfg : Config α) (c : ℕ) (p : Point α) : Bool :=
  p.isFinite &&
    match toCellIndex cfg p with
    | none => false
    | some d => inBlock cfg c d

theorem fallsInBlock_of_cell {cfg : Config α} {c d : ℕ} {p : Point α} (hfin : p.isFinite = true)
    (hcell : toCellIndex cfg p = some d) (hd : inBlock cfg c d = true) :
    fallsInBlock cfg c p = true := by
  simp only [fallsInBlock, hfin, hcell, hd, Bool.and_self]

theorem filter_eq_of_block {cfg : Config α} {c : ℕ} {cloud cloud' : List (Point α)}
    (h : cloud.filter (fallsInBlock cfg c) = cloud'.filter (fallsInBlock cfg c))
    {keep : Point α → Bool} (hkeep : ∀ p, keep p = true → fallsInBlock cfg c p = true) :
    cloud.filter keep = cloud'.filter keep := by
  have hnarrow : ∀ ps : List (Point α), ps.filter keep = (ps.filter (fallsInBlock cfg c)).filter keep := by
    intro ps
    rw [List.filter_filter]
    apply List.filter_congr
    intro p _
    cases hp : keep p with
    | false => rfl
    | true => rw [hkeep p hp, Bool.true_and]
  rw [hnarrow cloud, hnarrow cloud', h]

theorem naming_eq_of_block {cfg : Config α} {c : ℕ} {cloud cloud' : List (Point α)}
    (h : cloud.filter (fallsInBlock cfg c) = cloud'.filter (fallsInBlock cfg c))
    {key : Point α → Option ℕ}
    (hkey : ∀ p, key p = some c → p.isFinite = true ∧ toCellIndex cfg p = some c) :
    naming key cloud c = naming key cloud' c := by
  apply filter_eq_of_block h
  intro p hp
  rw [decide_eq_true_eq] at hp
  obtain ⟨hfin, hindex⟩ := hkey p hp
  exact fallsInBlock_of_cell hfin hindex (inBlock_self cfg c)

variable [Sub α] [LT α] [DecidableLT α]

theorem statisticsCell_some {cfg : Config α} {p : Point α} {c : ℕ}
    (h : statisticsCell cfg p = some c) : p.isFinite = true ∧ toCellIndex cfg p = some c := by
  unfold statisticsCell at h
  simp only at h
  split_ifs at h with hfin
  exact ⟨hfin, h⟩

theorem obstacleCell_some {cfg : Config α} {count : List ℕ} {ground : List α} {p : Point α} {c : ℕ}
    (h : obstacleCell cfg count ground p = some c) :
    p.isFinite = true ∧ isfinite p.range = true ∧ toCellIndex cfg p = some c := by
  unfold obstacleCell at h
  split_ifs at h with hskip
  simp only [not_or, not_not] at hskip
  cases hcell : toCellIndex cfg p with
  | none =>
    rw [hcell] at h
    cases h
  | some d =>
    rw [hcell] at h
    simp only at h
    split_ifs at h
    exact ⟨hskip.1, hskip.2.1, h⟩

/-- Whether a point is an obstacle in cell `c` depends on the entries of `c` only. -/
theorem obstacleCell_congr {cfg : Config α} {count count' : List ℕ} {ground ground' : List α}
    {c : ℕ} (hcount : count.getD c 0 = count'.getD c 0)
    (hground : ground.getD c CppMath.quietNaN = ground'.getD c CppMath.quietNaN) (p : Point α) :
    obstacleCell cfg count ground p = some c ↔ obstacleCell cfg count' ground' p = some c := by
  unfold obstacleCell
  split_ifs
  · exact Iff.rfl
  · cases toCellIndex cfg p with
    | none => exact Iff.rfl
    | some d =>
      by_cases hd : d = c
      · rw [hd]
        simp only [hcount, hground]
      · simp [hd]

theorem elevationsOf_eq_of_block {cfg : Config α} {c : ℕ} {cloud cloud' : List (Point α)}
    (h : cloud.filter (fallsInBlock cfg c) = cloud'.filter (fallsInBlock cfg c)) :
    elevationsOf cfg cloud c = elevationsOf cfg cloud' c := by
  -- only points that are added to `c` contribute, and these lie in the block
  have hnarrow : ∀ ps : List (Point α), elevationsOf cfg ps c
      = elevationsOf cfg (ps.filter fun p => decide (c ∈ elevationTargets cfg p)) c := by
    intro ps
    induction ps with
    | nil => rfl
    | cons p ps ih =>
      by_cases hp : c ∈ elevationTargets cfg p
      · simp only [elevationsOf, List.filter_cons, hp, decide_true, if_true, List.flatMap_cons]
        exact congrArg _ ih
      · have hnone : (elevationTargets cfg p).filter (· = c) = [] := by
          apply List.filter_eq_nil_iff.mpr
          intro n hn hnc
          exact hp (of_decide_eq_true hnc ▸ hn)
        simp only [elevationsOf, List.filter_cons, hp, decide_false, List.flatMap_cons, hnone]
        exact ih
  rw [hnarrow cloud, hnarrow cloud', filter_eq_of_block h]
  intro p hp
  rw [decide_eq_true_eq] at hp
  unfold elevationTargets at hp
  cases hcell : statisticsCell cfg p with
  | none =>
    rw [hcell] at hp
    cases hp
  | some d =>
    rw [hcell] at hp
    obtain ⟨hfin, hindex⟩ := statisticsCell_some hcell
    exact fallsInBlock_of_cell hfin hindex (inBlock_of_mem_elevationCells hp)

theorem planarGround_eq_of_block {cfg : Config α} {c : ℕ} {cloud cloud' : List (Point α)}
    (h : cloud.filter (fallsInBlock cfg c) = cloud'.filter (fallsInBlock cfg c)) :
    (planarGround cfg (statistics cfg cloud))[c]?
      = (planarGround cfg (statistics cfg cloud'))[c]? := by
  rw [planarGround_eq, planarGround_eq, List.getElem?_map, List.getElem?_map]
  by_cases hc : c < cfg.cellNum
  · simp [hc, elevationsOf_eq_of_block h]
  · simp [hc]

theorem planarPointCount_eq_of_block {cfg : Config α} {c : ℕ} {cloud cloud' : List (Point α)}
    (h : cloud.filter (fallsInBlock cfg c) = cloud'.filter (fallsInBlock cfg c)) :
    (statistics cfg cloud).planarPointCount[c]?
      = (statistics cfg cloud').planarPointCount[c]? := by
  rw [planarPointCount_eq, planarPointCount_eq, List.getElem?_map, List.getElem?_map]
  by_cases hc : c < cfg.cellNum
  · simp [hc, naming_eq_of_block h fun p => statisticsCell_some]
  · simp [hc]

theorem obstaclePoints_eq_of_block {cfg : Config α} {c : ℕ} {cloud cloud' : List (Point α)}
    (h : cloud.filter (fallsInBlock cfg c) = cloud'.filter (fallsInBlock cfg c)) :
    obstaclePoints cfg cloud c = obstaclePoints cfg cloud' c := by
  have hsame : ∀ p,
      obstacleCell cfg (statistics cfg cloud).planarPointCount
        (planarGround cfg (statistics cfg cloud)) p = some c ↔
      obstacleCell cfg (statistics cfg cloud').planarPointCount
        (planarGround cfg (statistics cfg cloud')) p = some c := by
    apply obstacleCell_congr
    · rw [List.getD_eq_getElem?_getD, List.getD_eq_getElem?_getD, planarPointCount_eq_of_block h]
    · rw [List.getD_eq_getElem?_getD, List.getD_eq_getElem?_getD, planarGround_eq_of_block h]
  have hfirst : obstaclePoints cfg cloud c = naming (obstacleCell cfg
      (statistics cfg cloud').planarPointCount (planarGround cfg (statistics cfg cloud')))
      cloud c := by
    apply List.filter_congr
    intro p _
    exact decide_eq_decide.mpr (hsame p)
  rw [hfirst]
  apply naming_eq_of_block h
  intro p hp
  obtain ⟨hfin, -, hindex⟩ := obstacleCell_some hp
  exact ⟨hfin, hindex⟩

/-- Two clouds with the same points in the block around a cell, in the same order,
leave the same ground, the same number of points and the same obstacle in it. -/
theorem terrain_cell_local (cfg : Config α) (c : ℕ) (cloud cloud' : List (Point α))
    (h : cloud.filter (fallsInBlock cfg c) = cloud'.filter (fallsInBlock cfg c)) :
    (planarGround cfg (statistics cfg cloud))[c]? = (planarGround cfg (statistics cfg cloud'))[c]? ∧
    (statistics cfg cloud).planarPointCount[c]? = (statistics cfg cloud').planarPointCount[c]? ∧
    (obstacles cfg cloud)[c]? = (obstacles cfg cloud')[c]? := by
  refine ⟨planarGround_eq_of_block h, planarPointCount_eq_of_block h, ?_⟩
  rw [obstacles_eq, obstacles_eq, List.getElem?_map, List.getElem?_map]
  by_cases hc : c < cfg.cellNum
  · simp [hc, obstaclePoints_eq_of_block h]
  · simp [hc]

end Local

/-- The constructor's defaults in terrain mode, with a low ceiling and two rays
that meet at angle 0. -/
noncomputable def sceneParameters : Parameters (PyFloat ℝ) where
  minHeight := 0.0
  maxHeight := 1.0
  angleMin := .fin (-2.0)
  angleMax := 2.0
  angleIncrement := 2.0
  scanTime := 1.0
  rangeMin := 0.0
  rangeMax := 100.0
  adaptiveGroundFilter := false
  groundPercentile := 45.0
  groundMargin := 0.08
  groundEstimationMinRange := 0.3
  groundEstimationMaxRange := 2.5
  groundMinSamples := 100
  terrainGroundFilter := true
  terrainPlanarSize := 0.2
  terrainPlanarWidth := 51
  terrainQuantileZ := 0.25
  terrainUseSorting := true
  terrainLimitGroundLift := true
  terrainMaxGroundLift := 0.18
  terrainMinRelZ := .fin (-1.5)
  terrainMaxRelZ := 0.35
  terrainDisRatioZ := 0.2
  terrainVehicleHeight := 1.2
  terrainMinGroundPoints := 4
  terrainMinBlockPoints := 8
  terrainMinObstaclePoints := 4
  terrainNeighborSpread := true
  terrainMinObstacleRelZ := 0.08
  terrainObstacleRangeSlope := 0.0
  terrainConsiderDrop := false
  publishFilteredCloud := true
  infEpsilon := 1.0
  useInf := true

noncomputable def sceneConfig : Config (PyFloat ℝ) := Config.ofParameters sceneParameters

theorem terrainPlanarSize_ofParameters {p : Parameters (PyFloat ℝ)}
    (h : p.terrainPlanarSize = sceneParameters.terrainPlanarSize) :
    (Config.ofParameters p).terrainPlanarSize = PyFloat.fin 0.2 := by
  show (if p.terrainPlanarSize ≤ 0.0 then (0.2 : PyFloat ℝ) else p.terrainPlanarSize) = _
  rw [h]
  show (if (0.2 : PyFloat ℝ) ≤ 0.0 then (0.2 : PyFloat ℝ) else 0.2) = _
  rw [ite_self]
  exact PyFloat.ofScientific_eq _ _ _

theorem terrain_cell_local_nan_point :
    (obstacles sceneConfig [⟨1.0, 0.0, 0.5⟩])[5]?
      = (obstacles sceneConfig [⟨1.0, 0.0, 0.5⟩, ⟨.nan, 0.0, 0.0⟩])[5]? := by
  have hsame : ([⟨1.0, 0.0, 0.5⟩] : List (Point (PyFloat ℝ))).filter (fallsInBlock sceneConfig 5)
      = [⟨1.0, 0.0, 0.5⟩, ⟨.nan, 0.0, 0.0⟩].filter (fallsInBlock sceneConfig 5) := by
    have hnan : fallsInBlock sceneConfig 5 ⟨.nan, 0.0, 0.0⟩ = false := rfl
    rw [List.filter_cons, List.filter_cons, List.filter_cons, hnan]
    rfl
  exact (terrain_cell_local sceneConfig 5 _ _ hsame).2.2

end PointCloudToLaserScan
end RtkLocalization
