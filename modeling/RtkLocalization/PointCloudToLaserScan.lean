import RtkLocalization.CppMath

/-!
# `pointcloud_to_laserscan_node.cpp`

The constructor's parameter limits and `cloudCallback` after the transform: a
cloud becomes a laser scan and, when asked for, the cloud of the points that were
used. There are three modes. Terrain mode makes three passes over a grid of cells
(elevation statistics, obstacle classification, projection of one obstacle per
cell); the other two project every point within a band of heights, whose lower
end adaptive mode lifts to an estimated ground.

Vectors indexed by cell or by ray are lists. A loop with `continue` statements is
a fold whose step first decides whether, and for which cell or ray, the point
counts.
-/

namespace RtkLocalization
namespace PointCloudToLaserScan

structure Point (α : Type) where
  x : α
  y : α
  z : α
  deriving DecidableEq, Repr

structure Parameters (α : Type) where
  minHeight : α
  maxHeight : α
  angleMin : α
  angleMax : α
  angleIncrement : α
  scanTime : α
  rangeMin : α
  rangeMax : α
  adaptiveGroundFilter : Bool
  groundPercentile : α
  groundMargin : α
  groundEstimationMinRange : α
  groundEstimationMaxRange : α
  groundMinSamples : ℤ
  terrainGroundFilter : Bool
  terrainPlanarSize : α
  terrainPlanarWidth : ℤ
  terrainQuantileZ : α
  terrainUseSorting : Bool
  terrainLimitGroundLift : Bool
  terrainMaxGroundLift : α
  terrainMinRelZ : α
  terrainMaxRelZ : α
  terrainDisRatioZ : α
  terrainVehicleHeight : α
  terrainMinGroundPoints : ℤ
  terrainMinBlockPoints : ℤ
  terrainMinObstaclePoints : ℤ
  terrainNeighborSpread : Bool
  terrainMinObstacleRelZ : α
  terrainObstacleRangeSlope : α
  terrainConsiderDrop : Bool
  publishFilteredCloud : Bool
  infEpsilon : α
  useInf : Bool

/-- Parameters as the constructor leaves them. Of its limits, those on integers
are what the callback relies on. -/
structure Config (α : Type) extends Parameters α where
  groundMinSamples_pos : 1 ≤ groundMinSamples
  terrainPlanarWidth_ge : 3 ≤ terrainPlanarWidth
  terrainMinGroundPoints_pos : 1 ≤ terrainMinGroundPoints
  terrainMinObstaclePoints_pos : 1 ≤ terrainMinObstaclePoints

structure LaserScan (α : Type) where
  angleMin : α
  angleMax : α
  angleIncrement : α
  timeIncrement : α
  scanTime : α
  rangeMin : α
  rangeMax : α
  ranges : List α

structure Output (α : Type) where
  scan : LaserScan α
  filteredCloud : Option (List (Point α))

/-! ### Parameter limits -/

def atLeast {α : Type} [LT α] [DecidableLT α] (lo x : α) : α := if x < lo then lo else x

def atMost {α : Type} [LT α] [DecidableLT α] (hi x : α) : α := if hi < x then hi else x

theorem le_atLeast (lo x : ℤ) : lo ≤ atLeast lo x := by
  unfold atLeast
  split_ifs <;> omega

/-- `terrain_planar_width_`: at least 3, then made odd. -/
def gridWidth (width : ℤ) : ℤ :=
  let width := atLeast 3 width
  if width % 2 = 0 then width + 1 else width

theorem three_le_gridWidth (width : ℤ) : 3 ≤ gridWidth width := by
  have h := le_atLeast 3 width
  unfold gridWidth
  simp only
  split_ifs <;> omega

section Model
variable {α : Type} [Add α] [Sub α] [Mul α] [Div α] [OfScientific α] [IsFinite α] [CppMath α]
  [LT α] [DecidableLT α] [LE α] [DecidableLE α]

def Config.ofParameters (p : Parameters α) : Config α :=
  { p with
    groundPercentile := atMost 100.0 (atLeast 0.0 p.groundPercentile)
    groundMinSamples := atLeast 1 p.groundMinSamples
    terrainPlanarSize := if p.terrainPlanarSize ≤ 0.0 then 0.2 else p.terrainPlanarSize
    terrainPlanarWidth := gridWidth p.terrainPlanarWidth
    terrainQuantileZ := atMost 1.0 (atLeast 0.0 p.terrainQuantileZ)
    terrainMaxGroundLift := atLeast 0.0 p.terrainMaxGroundLift
    terrainVehicleHeight := if p.terrainVehicleHeight ≤ 0.0 then 1.2 else p.terrainVehicleHeight
    terrainMinGroundPoints := atLeast 1 p.terrainMinGroundPoints
    terrainMinBlockPoints := atLeast 1 p.terrainMinBlockPoints
    terrainMinObstaclePoints := atLeast 1 p.terrainMinObstaclePoints
    terrainMinObstacleRelZ := atLeast 0.0 p.terrainMinObstacleRelZ
    terrainObstacleRangeSlope := atLeast 0.0 p.terrainObstacleRangeSlope
    groundMinSamples_pos := le_atLeast 1 _
    terrainPlanarWidth_ge := three_le_gridWidth _
    terrainMinGroundPoints_pos := le_atLeast 1 _
    terrainMinObstaclePoints_pos := le_atLeast 1 _ }

/-! ### Points, rays and the scan -/

def Point.isFinite (p : Point α) : Bool := isfinite p.x && isfinite p.y && isfinite p.z

def Point.range (p : Point α) : α := CppMath.hypot p.x p.y

def emptyScan (cfg : Config α) : LaserScan α where
  angleMin := CppMath.toFloat cfg.angleMin
  angleMax := CppMath.toFloat cfg.angleMax
  angleIncrement := CppMath.toFloat cfg.angleIncrement
  timeIncrement := 0.0
  scanTime := CppMath.toFloat cfg.scanTime
  rangeMin := CppMath.toFloat cfg.rangeMin
  rangeMax := CppMath.toFloat cfg.rangeMax
  ranges := []

/-- `ranges_size`. -/
def rayCount (cfg : Config α) : ℕ :=
  let scan := emptyScan cfg
  CppMath.ceilSize ((scan.angleMax - scan.angleMin) / scan.angleIncrement)

def noReturn (cfg : Config α) : α :=
  if cfg.useInf then CppMath.infinity
  else CppMath.toFloat ((emptyScan cfg).rangeMax + cfg.infEpsilon)

def rayIndex (cfg : Config α) (p : Point α) : Option ℕ :=
  let scan := emptyScan cfg
  let angle := CppMath.atan2 p.y p.x
  if angle < scan.angleMin ∨ scan.angleMax < angle then none
  else
    let index := CppMath.truncInt ((angle - scan.angleMin) / scan.angleIncrement)
    if index < 0 ∨ rayCount cfg ≤ index.toNat then none else some index.toNat

structure Projection (α : Type) where
  ranges : List α
  acceptedPoints : List (Point α)

def noProjection (cfg : Config α) : Projection α :=
  ⟨List.replicate (rayCount cfg) (noReturn cfg), []⟩

/-- `if (range < ranges[index]) ranges[index] = range`. -/
def shorten (range old : α) : α := if range < old then CppMath.toFloat range else old

def Projection.add (cfg : Config α) (s : Projection α) (ray : ℕ) (range : α) (p : Point α) :
    Projection α where
  ranges := s.ranges.modify ray (shorten range)
  acceptedPoints := if cfg.publishFilteredCloud then s.acceptedPoints ++ [p] else s.acceptedPoints

/-! ### Terrain mode -/

def Config.width (cfg : Config α) : ℕ := cfg.terrainPlanarWidth.toNat

def Config.cellNum (cfg : Config α) : ℕ := cfg.width * cfg.width

/-- One coordinate of a cell: `ind_x` or `ind_y`. -/
def cellCoordinate (cfg : Config α) (x : α) : ℤ :=
  let halfVoxel := cfg.terrainPlanarSize * 0.5
  let halfWidth := cfg.terrainPlanarWidth / 2
  CppMath.floorInt ((x + halfVoxel) / cfg.terrainPlanarSize) + halfWidth

/-- `to_cell_index`, with no cell instead of -1. -/
def toCellIndex (cfg : Config α) (p : Point α) : Option ℕ :=
  let indX := cellCoordinate cfg p.x
  let indY := cellCoordinate cfg p.y
  if indX < 0 ∨ cfg.terrainPlanarWidth ≤ indX ∨ indY < 0 ∨ cfg.terrainPlanarWidth ≤ indY then none
  else some (cfg.width * indX.toNat + indY.toNat)

def statisticsCell (cfg : Config α) (p : Point α) : Option ℕ :=
  if ¬ p.isFinite then none
  else
    let range := p.range
    let processingRange :=
      cfg.terrainPlanarSize * CppMath.ofNat (cfg.terrainPlanarWidth / 2 + 1).toNat
    if ¬ isfinite range ∨ processingRange < range then none
    else
      let localMinRelZ := cfg.terrainMinRelZ - cfg.terrainDisRatioZ * range
      let localMaxRelZ := cfg.terrainMaxRelZ + cfg.terrainDisRatioZ * range
      if p.z < localMinRelZ ∨ localMaxRelZ < p.z then none else toCellIndex cfg p

/-- The cells whose elevations a point in cell `c` is added to. -/
def elevationCells (cfg : Config α) (c : ℕ) : List ℕ :=
  if cfg.terrainNeighborSpread then
    let indX : ℤ := (c / cfg.width : ℕ)
    let indY : ℤ := (c % cfg.width : ℕ)
    [-1, 0, 1].flatMap fun dx => [-1, 0, 1].filterMap fun dy =>
      let nx := indX + dx
      let ny := indY + dy
      if 0 ≤ nx ∧ nx < cfg.width ∧ 0 ≤ ny ∧ ny < cfg.width then
        some (nx * cfg.width + ny).toNat
      else none
  else [c]

structure Statistics (α : Type) where
  planarPointElev : List (List α)
  planarPointCount : List ℕ

def statisticsStep (cfg : Config α) (s : Statistics α) (p : Point α) : Statistics α :=
  match statisticsCell cfg p with
  | none => s
  | some c =>
    { planarPointCount := s.planarPointCount.modify c (· + 1)
      planarPointElev := (elevationCells cfg c).foldl
        (fun elev n => elev.modify n (· ++ [p.z])) s.planarPointElev }

def statistics (cfg : Config α) (cloud : List (Point α)) : Statistics α :=
  cloud.foldl (statisticsStep cfg)
    ⟨List.replicate cfg.cellNum [], List.replicate cfg.cellNum 0⟩

/-- `std::sort`. -/
def sorted (zs : List α) : List α := zs.mergeSort fun a b => !decide (b < a)

/-- `*std::min_element` of a range, 0 when it is empty. -/
def minElement : List α → α
  | [] => 0.0
  | z :: zs => zs.foldl (fun m z => if z < m then z else m) z

/-- The ground of a cell with these elevations; NaN when there are too few. -/
def groundZ (cfg : Config α) (elev : List α) : α :=
  if elev.length < cfg.terrainMinGroundPoints then CppMath.quietNaN
  else if cfg.terrainUseSorting then
    let elev := sorted elev
    let quantileId := min
      (CppMath.roundSize (cfg.terrainQuantileZ * CppMath.ofNat (elev.length - 1)))
      (elev.length - 1)
    let ground := elev.getD quantileId 0.0
    if cfg.terrainLimitGroundLift then
      let limit := elev.getD 0 0.0 + CppMath.toFloat cfg.terrainMaxGroundLift
      if limit < ground then limit else ground
    else ground
  else minElement elev

def planarGround (cfg : Config α) (s : Statistics α) : List α :=
  s.planarPointElev.map (groundZ cfg)

/-- The tests of the classification pass on the entries of the point's cell: enough
points in it, a ground, and a height above the ground within the limits. -/
def standsOut (cfg : Config α) (count : ℕ) (ground : α) (p : Point α) : Bool :=
  let relZ := p.z - ground
  let relZ := if cfg.terrainConsiderDrop then CppMath.fabs relZ else relZ
  let threshold := cfg.terrainMinObstacleRelZ + cfg.terrainObstacleRangeSlope * p.range
  !(decide (count < cfg.terrainMinBlockPoints) || !isfinite ground || decide (relZ < threshold) ||
    decide (cfg.terrainVehicleHeight < relZ))

def obstacleCell (cfg : Config α) (count : List ℕ) (ground : List α) (p : Point α) : Option ℕ :=
  if ¬ p.isFinite ∨ ¬ isfinite p.range ∨ p.range < cfg.rangeMin ∨ cfg.rangeMax < p.range then none
  else
    match toCellIndex cfg p with
    | none => none
    | some c =>
      if standsOut cfg (count.getD c 0) (ground.getD c CppMath.quietNaN) p then some c else none

/-- The entries of `obstacle_point_count`, `obstacle_best_range` and
`obstacle_best_point` for one cell. -/
structure CellObstacle (α : Type) where
  count : ℕ
  bestRange : α
  bestPoint : Point α

def noObstacle : CellObstacle α := ⟨0, CppMath.infinity, ⟨0.0, 0.0, 0.0⟩⟩

def CellObstacle.add (p : Point α) (o : CellObstacle α) : CellObstacle α :=
  if p.range < o.bestRange then ⟨o.count + 1, p.range, p⟩ else { o with count := o.count + 1 }

def obstacleStep (cfg : Config α) (count : List ℕ) (ground : List α)
    (cells : List (CellObstacle α)) (p : Point α) : List (CellObstacle α) :=
  match obstacleCell cfg count ground p with
  | none => cells
  | some c => cells.modify c (CellObstacle.add p)

def obstacles (cfg : Config α) (cloud : List (Point α)) : List (CellObstacle α) :=
  let s := statistics cfg cloud
  cloud.foldl (obstacleStep cfg s.planarPointCount (planarGround cfg s))
    (List.replicate cfg.cellNum noObstacle)

def cellRay (cfg : Config α) (o : CellObstacle α) : Option ℕ :=
  if o.count < cfg.terrainMinObstaclePoints ∨ ¬ isfinite o.bestRange then none
  else rayIndex cfg o.bestPoint

def projectCell (cfg : Config α) (s : Projection α) (o : CellObstacle α) : Projection α :=
  match cellRay cfg o with
  | none => s
  | some ray => s.add cfg ray o.bestRange o.bestPoint

def projectTerrain (cfg : Config α) (cloud : List (Point α)) : Projection α :=
  (obstacles cfg cloud).foldl (projectCell cfg) (noProjection cfg)

/-! ### Adaptive and plain mode -/

def groundCandidate (cfg : Config α) (p : Point α) : Option α :=
  if CppMath.isnan p.x ∨ CppMath.isnan p.y ∨ CppMath.isnan p.z then none
  else
    let range := p.range
    if ¬ isfinite range ∨ range < cfg.groundEstimationMinRange ∨
        cfg.groundEstimationMaxRange < range then none
    else some p.z

def effectiveMinHeight (cfg : Config α) (cloud : List (Point α)) : α :=
  if ¬ cfg.adaptiveGroundFilter then cfg.minHeight
  else
    let candidates := cloud.filterMap (groundCandidate cfg)
    if candidates.length < cfg.groundMinSamples then cfg.minHeight
    else
      let idx := CppMath.roundSize
        (cfg.groundPercentile / 100.0 * CppMath.ofNat (candidates.length - 1))
      -- the element `std::nth_element` puts at `idx`
      let groundRef := (sorted candidates).getD idx 0.0
      let adaptiveMin := groundRef + cfg.groundMargin
      let effectiveMin := if cfg.minHeight < adaptiveMin then adaptiveMin else cfg.minHeight
      if cfg.maxHeight < effectiveMin then cfg.maxHeight else effectiveMin

def pointRay (cfg : Config α) (minHeight : α) (p : Point α) : Option ℕ :=
  if ¬ p.isFinite ∨ cfg.maxHeight < p.z ∨ p.z < minHeight then none
  else if p.range < cfg.rangeMin ∨ cfg.rangeMax < p.range then none
  else rayIndex cfg p

def projectPoint (cfg : Config α) (minHeight : α) (s : Projection α) (p : Point α) : Projection α :=
  match pointRay cfg minHeight p with
  | none => s
  | some ray => s.add cfg ray p.range p

def projectHeights (cfg : Config α) (cloud : List (Point α)) : Projection α :=
  cloud.foldl (projectPoint cfg (effectiveMinHeight cfg cloud)) (noProjection cfg)

/-! ### The callback -/

def project (cfg : Config α) (cloud : List (Point α)) : Projection α :=
  if cfg.terrainGroundFilter then projectTerrain cfg cloud else projectHeights cfg cloud

def cloudCallback (cfg : Config α) (cloud : List (Point α)) : Output α :=
  let s := project cfg cloud
  { scan := { emptyScan cfg with ranges := s.ranges }
    filteredCloud := if cfg.publishFilteredCloud then some s.acceptedPoints else none }

end Model

end PointCloudToLaserScan
end RtkLocalization
