import RtkLocalization.TerrainCells

/-!
# The scan and the filtered cloud

Both vectors of a callback are filled by one loop over items with a ray, a range
and a point. Read ray by ray, a range is the least of the no-return value and the
ranges of the items on the ray (`ranges_projectAll`). In terrain mode the items
are the cells, and the item of a cell is its first nearest obstacle point
(`terrain_scan_exact`).
-/

namespace RtkLocalization
namespace PointCloudToLaserScan

open Scatter Selection PyFloat

section Projection
variable {α ι : Type} [Add α] [Sub α] [Div α] [OfScientific α] [CppMath α] [LT α] [DecidableLT α]

/-- The common loop of the modes. -/
def projectAll (cfg : Config α) (ray : ι → Option ℕ) (range : ι → α) (point : ι → Point α)
    (items : List ι) : Projection α :=
  items.foldl
    (fun s x =>
      match ray x with
      | none => s
      | some k => s.add cfg k (range x) (point x))
    (noProjection cfg)

theorem ranges_projectAll (cfg : Config α) (ray : ι → Option ℕ) (range : ι → α)
    (point : ι → Point α) (items : List ι) :
    (projectAll cfg ray range point items).ranges = (List.range (rayCount cfg)).map fun k =>
      (naming ray items k).foldl (fun old x => shorten (range x) old) (noReturn cfg) := by
  have hloop : (projectAll cfg ray range point items).ranges
      = scatter ray (fun x => shorten (range x))
          (List.replicate (rayCount cfg) (noReturn cfg)) items := by
    refine (List.foldl_hom Projection.ranges ?_).symm
    intro s x
    cases ray x with
    | none => rfl
    | some k => rfl
  rw [hloop, scatter_replicate]

theorem acceptedPoints_projectAll (cfg : Config α) (ray : ι → Option ℕ) (range : ι → α)
    (point : ι → Point α) (items : List ι) :
    (projectAll cfg ray range point items).acceptedPoints =
      if cfg.publishFilteredCloud then (items.filter fun x => (ray x).isSome).map point else [] := by
  have hloop : ∀ s : Projection α,
      (items.foldl
        (fun s x =>
          match ray x with
          | none => s
          | some k => s.add cfg k (range x) (point x)) s).acceptedPoints
        = s.acceptedPoints ++
          if cfg.publishFilteredCloud then (items.filter fun x => (ray x).isSome).map point
          else [] := by
    induction items with
    | nil =>
      intro s
      simp
    | cons x items ih =>
      intro s
      rw [List.foldl_cons, ih]
      cases hray : ray x with
      | none => simp [hray]
      | some k =>
        cases hpublish : cfg.publishFilteredCloud with
        | true => simp [hray, Projection.add, hpublish]
        | false => simp [Projection.add, hpublish]
  exact (hloop (noProjection cfg)).trans (List.nil_append _)

end Projection

/-! ### Rays -/

section Rays
variable {α : Type} [Sub α] [Div α] [OfScientific α] [CppMath α] [LT α] [DecidableLT α]

def Point.angle (p : Point α) : α := CppMath.atan2 p.y p.x

/-- The direction of a point is inside `[angle_min, angle_max]`. -/
def InsideAngles (cfg : Config α) (p : Point α) : Prop :=
  ¬ p.angle < (emptyScan cfg).angleMin ∧ ¬ (emptyScan cfg).angleMax < p.angle

/-- The bin of a direction, counted from `angle_min` in steps of
`angle_increment`. -/
def bin (cfg : Config α) (p : Point α) : ℤ :=
  CppMath.truncInt ((p.angle - (emptyScan cfg).angleMin) / (emptyScan cfg).angleIncrement)

theorem rayIndex_eq_some_iff (cfg : Config α) (p : Point α) (k : ℕ) :
    rayIndex cfg p = some k ↔ InsideAngles cfg p ∧ bin cfg p = k ∧ k < rayCount cfg := by
  have hunfold : rayIndex cfg p =
      if p.angle < (emptyScan cfg).angleMin ∨ (emptyScan cfg).angleMax < p.angle then none
      else if bin cfg p < 0 ∨ rayCount cfg ≤ (bin cfg p).toNat then none
      else some (bin cfg p).toNat := rfl
  rw [hunfold, InsideAngles, ← not_or]
  by_cases hout : p.angle < (emptyScan cfg).angleMin ∨ (emptyScan cfg).angleMax < p.angle
  · simp [hout]
  · rw [if_neg hout]
    generalize bin cfg p = b
    by_cases hb : b < 0 ∨ rayCount cfg ≤ b.toNat
    · rw [if_pos hb]
      refine iff_of_false nofun ?_
      intro h
      omega
    · rw [if_neg hb, Option.some_inj]
      refine ⟨fun h => ⟨hout, by omega, by omega⟩, fun h => by omega⟩

theorem exists_rayIndex_iff (cfg : Config α) (p : Point α) :
    (∃ k, rayIndex cfg p = some k) ↔
      InsideAngles cfg p ∧ ∃ k : ℕ, k < rayCount cfg ∧ bin cfg p = k := by
  simp only [rayIndex_eq_some_iff]
  tauto

end Rays

/-! ### The obstacle of a cell -/

section Obstacle
variable {α : Type} [CppMath α] [LT α] [DecidableLT α]

theorem foldl_add_eq (ps : List (Point α)) (o : CellObstacle α) :
    (ps.foldl (fun o p => o.add p) o).count = o.count + ps.length ∧
    ((ps.foldl (fun o p => o.add p) o).bestRange, (ps.foldl (fun o p => o.add p) o).bestPoint)
      = ps.foldl (keepFirst Point.range) (o.bestRange, o.bestPoint) := by
  induction ps generalizing o with
  | nil => exact ⟨rfl, rfl⟩
  | cons p ps ih =>
    obtain ⟨hcount, hbest⟩ := ih (o.add p)
    rw [List.foldl_cons, List.foldl_cons]
    by_cases hp : p.range < o.bestRange
    · have hadd : o.add p = ⟨o.count + 1, p.range, p⟩ := if_pos hp
      have hkeep : keepFirst Point.range (o.bestRange, o.bestPoint) p = (p.range, p) := if_pos hp
      rw [hadd] at hcount hbest ⊢
      rw [hkeep, hcount, hbest, List.length_cons]
      refine ⟨?_, rfl⟩
      show o.count + 1 + ps.length = o.count + (ps.length + 1)
      omega
    · have hadd : o.add p = { o with count := o.count + 1 } := if_neg hp
      have hkeep : keepFirst Point.range (o.bestRange, o.bestPoint) p = (o.bestRange, o.bestPoint) :=
        if_neg hp
      rw [hadd] at hcount hbest ⊢
      rw [hkeep, hcount, hbest, List.length_cons]
      refine ⟨?_, rfl⟩
      show o.count + 1 + ps.length = o.count + (ps.length + 1)
      omega

end Obstacle

section Exact
variable (cfg : Config (PyFloat ℝ)) (cloud : List (Point (PyFloat ℝ)))

/-- What the classification pass leaves in cell `c`. -/
noncomputable def cellObstacle (c : ℕ) : CellObstacle (PyFloat ℝ) :=
  (obstaclePoints cfg cloud c).foldl (fun o p => o.add p) noObstacle

theorem isfinite_range_of_mem {c : ℕ} {p : Point (PyFloat ℝ)} (h : p ∈ obstaclePoints cfg cloud c) :
    isfinite p.range = true :=
  (obstacleCell_some ((mem_naming _).mp h).2).2.1

theorem count_cellObstacle (c : ℕ) :
    (cellObstacle cfg cloud c).count = (obstaclePoints cfg cloud c).length := by
  rw [cellObstacle, (foldl_add_eq _ _).1]
  exact Nat.zero_add _

/-- The first nearest obstacle point of a cell is what the running minimum ends
with. -/
theorem cellObstacle_of_firstLeast {c : ℕ} {p : Point (PyFloat ℝ)}
    (h : FirstLeast Point.range p (obstaclePoints cfg cloud c)) :
    (cellObstacle cfg cloud c).bestRange = p.range ∧ (cellObstacle cfg cloud c).bestPoint = p := by
  obtain ⟨r, hr⟩ := exists_fin_of_isfinite (isfinite_range_of_mem cfg cloud h.least.1)
  have hlt : p.range < (noObstacle : CellObstacle (PyFloat ℝ)).bestRange := by
    rw [hr]
    exact fin_lt_inf r
  have hbest := (foldl_add_eq (obstaclePoints cfg cloud c) noObstacle).2
  rw [foldl_keepFirst_of_firstLeast h hlt] at hbest
  exact Prod.mk.inj hbest

theorem range_ne_nan {c : ℕ} {p : Point (PyFloat ℝ)} (h : p ∈ obstaclePoints cfg cloud c) :
    p.range ≠ nan :=
  ne_nan_of_isfinite (isfinite_range_of_mem cfg cloud h)

theorem exists_firstLeast_of_count {c : ℕ}
    (h : cfg.terrainMinObstaclePoints ≤ (obstaclePoints cfg cloud c).length) :
    ∃ p, FirstLeast Point.range p (obstaclePoints cfg cloud c) := by
  have hpos := cfg.terrainMinObstaclePoints_pos
  apply exists_firstLeast
  · intro hnil
    simp only [hnil, List.length_nil, Nat.cast_zero] at h
    omega
  · intro q hq
    exact range_ne_nan cfg cloud hq

theorem cellRay_eq_some_iff (c k : ℕ) :
    cellRay cfg (cellObstacle cfg cloud c) = some k ↔
      cfg.terrainMinObstaclePoints ≤ (obstaclePoints cfg cloud c).length ∧
      ∃ p, FirstLeast Point.range p (obstaclePoints cfg cloud c) ∧ rayIndex cfg p = some k := by
  unfold cellRay
  rw [count_cellObstacle]
  by_cases hcount : cfg.terrainMinObstaclePoints ≤ (obstaclePoints cfg cloud c).length
  · obtain ⟨p, hp⟩ := exists_firstLeast_of_count cfg cloud hcount
    obtain ⟨hrange, hpoint⟩ := cellObstacle_of_firstLeast cfg cloud hp
    rw [if_neg (by simp [hrange, isfinite_range_of_mem cfg cloud hp.least.1, hcount]), hpoint]
    refine ⟨fun h => ⟨hcount, p, hp, h⟩, fun h => ?_⟩
    obtain ⟨-, q, hq, hray⟩ := h
    rw [← (cellObstacle_of_firstLeast cfg cloud hq).2, hpoint] at hray
    exact hray
  · rw [if_pos (Or.inl (not_le.mp hcount))]
    exact iff_of_false nofun fun h => hcount h.1

theorem projectTerrain_eq :
    projectTerrain cfg cloud = projectAll cfg (fun c => cellRay cfg (cellObstacle cfg cloud c))
      (fun c => (cellObstacle cfg cloud c).bestRange)
      (fun c => (cellObstacle cfg cloud c).bestPoint) (List.range cfg.cellNum) := by
  rw [projectTerrain, obstacles_eq, List.foldl_map]
  rfl

/-- The ranges that compete for ray `k`. -/
noncomputable def rangesOn (k : ℕ) : List (PyFloat ℝ) :=
  (naming (fun c => cellRay cfg (cellObstacle cfg cloud c)) (List.range cfg.cellNum) k).map
    fun c => (cellObstacle cfg cloud c).bestRange

theorem ranges_projectTerrain :
    (projectTerrain cfg cloud).ranges
      = (List.range (rayCount cfg)).map fun k => (rangesOn cfg cloud k).foldl pyMin (noReturn cfg) := by
  rw [projectTerrain_eq, ranges_projectAll]
  apply List.map_congr_left
  intro k _
  rw [rangesOn, List.foldl_map]
  rfl

theorem cellObstacle_on_ray {c k : ℕ} (h : cellRay cfg (cellObstacle cfg cloud c) = some k) :
    (cellObstacle cfg cloud c).bestRange = (cellObstacle cfg cloud c).bestPoint.range ∧
    rayIndex cfg (cellObstacle cfg cloud c).bestPoint = some k := by
  obtain ⟨-, p, hp, hray⟩ := (cellRay_eq_some_iff cfg cloud c k).mp h
  obtain ⟨hrange, hpoint⟩ := cellObstacle_of_firstLeast cfg cloud hp
  rw [hrange, hpoint]
  exact ⟨rfl, hray⟩

/-- The confirmed cells with their nearest obstacle points, in cell order. -/
noncomputable def picks : List (ℕ × Point (PyFloat ℝ)) :=
  ((List.range cfg.cellNum).filter fun c => (cellRay cfg (cellObstacle cfg cloud c)).isSome).map
    fun c => (c, (cellObstacle cfg cloud c).bestPoint)

theorem mem_picks_iff (c : ℕ) (p : Point (PyFloat ℝ)) :
    (c, p) ∈ picks cfg cloud ↔
      c < cfg.cellNum ∧ cfg.terrainMinObstaclePoints ≤ (obstaclePoints cfg cloud c).length ∧
      FirstLeast Point.range p (obstaclePoints cfg cloud c) ∧ ∃ k, rayIndex cfg p = some k := by
  have hmem : (c, p) ∈ picks cfg cloud ↔ c < cfg.cellNum ∧
      (∃ k, cellRay cfg (cellObstacle cfg cloud c) = some k) ∧
      (cellObstacle cfg cloud c).bestPoint = p := by
    simp only [picks, List.mem_map, List.mem_filter, List.mem_range, Prod.mk.injEq,
      Option.isSome_iff_exists]
    refine ⟨fun h => ?_, fun h => ⟨c, ⟨h.1, h.2.1⟩, rfl, h.2.2⟩⟩
    obtain ⟨d, hd, rfl, hpoint⟩ := h
    exact ⟨hd.1, hd.2, hpoint⟩
  rw [hmem]
  refine and_congr_right fun _ => ⟨fun h => ?_, fun h => ?_⟩
  · obtain ⟨⟨k, hk⟩, hpoint⟩ := h
    obtain ⟨hcount, q, hq, hray⟩ := (cellRay_eq_some_iff cfg cloud c k).mp hk
    rw [(cellObstacle_of_firstLeast cfg cloud hq).2] at hpoint
    subst hpoint
    exact ⟨hcount, hq, k, hray⟩
  · obtain ⟨hcount, hp, k, hray⟩ := h
    exact ⟨⟨k, (cellRay_eq_some_iff cfg cloud c k).mpr ⟨hcount, p, hp, hray⟩⟩,
      (cellObstacle_of_firstLeast cfg cloud hp).2⟩

theorem pairwise_picks : ((picks cfg cloud).map Prod.fst).Pairwise (· < ·) := by
  have hcells : (picks cfg cloud).map Prod.fst
      = (List.range cfg.cellNum).filter fun c =>
          (cellRay cfg (cellObstacle cfg cloud c)).isSome := by
    rw [picks, List.map_map]
    exact List.map_id _
  rw [hcells]
  exact (List.pairwise_lt_range).filter _

theorem rangesOn_eq (k : ℕ) :
    rangesOn cfg cloud k
      = (((picks cfg cloud).map Prod.snd).filter fun p => rayIndex cfg p = some k).map
          Point.range := by
  have hfilter : ((List.range cfg.cellNum).filter fun c =>
        decide (cellRay cfg (cellObstacle cfg cloud c) = some k))
      = (List.range cfg.cellNum).filter fun c =>
        decide (rayIndex cfg (cellObstacle cfg cloud c).bestPoint = some k) &&
          (cellRay cfg (cellObstacle cfg cloud c)).isSome := by
    apply List.filter_congr
    intro c _
    cases hray : cellRay cfg (cellObstacle cfg cloud c) with
    | none => simp
    | some j => simp [(cellObstacle_on_ray cfg cloud hray).2]
  have hrange : ((List.range cfg.cellNum).filter fun c =>
        decide (cellRay cfg (cellObstacle cfg cloud c) = some k)).map
        (fun c => (cellObstacle cfg cloud c).bestRange)
      = ((List.range cfg.cellNum).filter fun c =>
        decide (cellRay cfg (cellObstacle cfg cloud c) = some k)).map
        (fun c => (cellObstacle cfg cloud c).bestPoint.range) := by
    apply List.map_congr_left
    intro c hc
    exact (cellObstacle_on_ray cfg cloud (of_decide_eq_true (List.mem_filter.mp hc).2)).1
  rw [rangesOn, naming, hrange, hfilter]
  simp only [picks, List.map_map, List.filter_map, List.filter_filter, Function.comp_def]

/-- A listed point has a ray, so it is on ray `k` as soon as it is in bin `k`. -/
theorem filter_bin_picks {k : ℕ} (hk : k < rayCount cfg) :
    ((picks cfg cloud).map Prod.snd).filter (fun p => bin cfg p = k)
      = ((picks cfg cloud).map Prod.snd).filter fun p => rayIndex cfg p = some k := by
  apply List.filter_congr
  intro p hp
  obtain ⟨⟨c, q⟩, hq, rfl⟩ := List.mem_map.mp hp
  obtain ⟨-, -, -, hsome⟩ := (mem_picks_iff cfg cloud c q).mp hq
  have hinside := ((exists_rayIndex_iff cfg q).mp hsome).1
  simp [rayIndex_eq_some_iff, hinside, hk]

theorem ranges_terrain {k : ℕ} (hk : k < rayCount cfg) :
    (projectTerrain cfg cloud).ranges[k]? = some
      (((((picks cfg cloud).map Prod.snd).filter fun p => rayIndex cfg p = some k).map
        Point.range).foldl pyMin (noReturn cfg)) := by
  rw [ranges_projectTerrain, List.getElem?_map, List.getElem?_range hk, Option.map_some, rangesOn_eq]

end Exact

/-! ### Rays between finite angles -/

theorem Point.exists_fin_of_isFinite {p : Point (PyFloat ℝ)} (h : p.isFinite = true) :
    ∃ x y z : ℝ, p = ⟨fin x, fin y, fin z⟩ := by
  obtain ⟨px, py, pz⟩ := p
  simp only [Point.isFinite, Bool.and_eq_true] at h
  obtain ⟨x, rfl⟩ := exists_fin_of_isfinite h.1.1
  obtain ⟨y, rfl⟩ := exists_fin_of_isfinite h.1.2
  obtain ⟨z, rfl⟩ := exists_fin_of_isfinite h.2
  exact ⟨x, y, z, rfl⟩

theorem exists_angle_of_isFinite {p : Point (PyFloat ℝ)} (h : p.isFinite = true) :
    ∃ t, p.angle = fin t := by
  obtain ⟨x, y, z, rfl⟩ := Point.exists_fin_of_isFinite h
  exact ⟨Planar.atan2 y x, rfl⟩

section FiniteAngles
variable {cfg : Config (PyFloat ℝ)} {a b i t : ℝ} {p : Point (PyFloat ℝ)}
  (ha : cfg.angleMin = fin a) (hi : cfg.angleIncrement = fin i) (hpos : 0 < i)
include ha

theorem angleMin_le_iff (ht : p.angle = fin t) :
    ¬ p.angle < (emptyScan cfg).angleMin ↔ a ≤ t := by
  have hmin : (emptyScan cfg).angleMin = fin a := ha
  rw [ht, hmin, fin_lt_fin, not_lt]

include hi hpos

theorem bin_of_fin (ht : p.angle = fin t) (hle : a ≤ t) : bin cfg p = ⌊(t - a) / i⌋ := by
  have hmin : (emptyScan cfg).angleMin = fin a := ha
  have hinc : (emptyScan cfg).angleIncrement = fin i := hi
  rw [bin, ht, hmin, hinc, fin_sub_fin, fin_div_fin _ hpos.ne']
  exact if_pos (div_nonneg (sub_nonneg.mpr hle) hpos.le)

theorem bin_nonneg (hp : p.isFinite = true) (hin : InsideAngles cfg p) : 0 ≤ bin cfg p := by
  obtain ⟨t, ht⟩ := exists_angle_of_isFinite hp
  have hle : a ≤ t := (angleMin_le_iff ha ht).mp hin.1
  rw [bin_of_fin ha hi hpos ht hle]
  exact Int.floor_nonneg.mpr (div_nonneg (sub_nonneg.mpr hle) hpos.le)

variable (hb : cfg.angleMax = fin b)
include hb

/-- Ray `k` exists when it starts before `angle_max`. -/
theorem lt_rayCount_iff (k : ℕ) : k < rayCount cfg ↔ a + k * i < b := by
  have hcount : rayCount cfg = ⌈(b - a) / i⌉.toNat := by
    show CppFloat.ceilSize ((cfg.angleMax - cfg.angleMin) / cfg.angleIncrement) = _
    rw [ha, hb, hi, fin_sub_fin, fin_div_fin _ hpos.ne']
    rfl
  rw [hcount, Int.lt_toNat, Int.lt_ceil, Int.cast_natCast, lt_div_iff₀ hpos, lt_sub_iff_add_lt']

/-- Ray `k` takes the directions from its start up to, but without, its end. -/
theorem rayIndex_of_fin (ht : p.angle = fin t) (k : ℕ) :
    rayIndex cfg p = some k ↔
      (a + k * i ≤ t ∧ t < a + (k + 1) * i) ∧ t ≤ b ∧ a + k * i < b := by
  have hmax : ¬ (emptyScan cfg).angleMax < p.angle ↔ t ≤ b := by
    have hangle : (emptyScan cfg).angleMax = fin b := hb
    rw [ht, hangle, fin_lt_fin, not_lt]
  have hstart : 0 ≤ k * i := mul_nonneg (Nat.cast_nonneg k) hpos.le
  have hbin : a ≤ t → (bin cfg p = k ↔ a + k * i ≤ t ∧ t < a + (k + 1) * i) := by
    intro hle
    rw [bin_of_fin ha hi hpos ht hle, Int.floor_eq_iff, Int.cast_natCast, le_div_iff₀ hpos,
      div_lt_iff₀ hpos, le_sub_iff_add_le', sub_lt_iff_lt_add']
  rw [rayIndex_eq_some_iff, lt_rayCount_iff ha hi hpos hb, InsideAngles, angleMin_le_iff ha ht, hmax]
  refine ⟨fun h => ?_, fun h => ?_⟩
  · obtain ⟨⟨hle, hend⟩, hk, hcount⟩ := h
    exact ⟨(hbin hle).mp hk, hend, hcount⟩
  · obtain ⟨hk, hend, hcount⟩ := h
    have hle : a ≤ t := by linarith
    exact ⟨⟨hle, hend⟩, (hbin hle).mpr hk, hcount⟩

end FiniteAngles

/-- In terrain mode the filtered cloud lists, in cell order, the first nearest
obstacle point of every confirmed cell whose direction has a ray, and every range
is the least of the no-return value and the ranges of the listed points in its
bin. With finite angles and a positive increment every direction inside the
limits has a bin from 0 on. -/
theorem terrain_scan_exact (cfg : Config (PyFloat ℝ)) (cloud : List (Point (PyFloat ℝ)))
    (hterrain : cfg.terrainGroundFilter = true) (hpublish : cfg.publishFilteredCloud = true) :
    (∃ listed : List (ℕ × Point (PyFloat ℝ)),
      (cloudCallback cfg cloud).filteredCloud = some (listed.map Prod.snd) ∧
      (listed.map Prod.fst).Pairwise (· < ·) ∧
      (∀ c p, (c, p) ∈ listed ↔
        c < cfg.cellNum ∧ cfg.terrainMinObstaclePoints ≤ (obstaclePoints cfg cloud c).length ∧
        FirstLeast Point.range p (obstaclePoints cfg cloud c) ∧ InsideAngles cfg p ∧
        ∃ k : ℕ, k < rayCount cfg ∧ bin cfg p = k) ∧
      (cloudCallback cfg cloud).scan.ranges.length = rayCount cfg ∧
      ∀ (k : ℕ) (r : PyFloat ℝ), (cloudCallback cfg cloud).scan.ranges[k]? = some r →
        IsLeastOf (noReturn cfg)
          (((listed.map Prod.snd).filter fun p => bin cfg p = k).map Point.range) r) ∧
    ∀ a i : ℝ, cfg.angleMin = fin a → cfg.angleIncrement = fin i → 0 < i →
      ∀ p, p.isFinite = true → InsideAngles cfg p → 0 ≤ bin cfg p := by
  have hproject : project cfg cloud = projectTerrain cfg cloud := if_pos hterrain
  have hlength : (projectTerrain cfg cloud).ranges.length = rayCount cfg := by
    rw [ranges_projectTerrain, List.length_map, List.length_range]
  refine ⟨⟨picks cfg cloud, ?_, pairwise_picks cfg cloud, ?_, ?_, ?_⟩, ?_⟩
  · show (if cfg.publishFilteredCloud then some (project cfg cloud).acceptedPoints else none) = _
    rw [if_pos hpublish, hproject, projectTerrain_eq, acceptedPoints_projectAll, if_pos hpublish,
      picks, List.map_map]
    rfl
  · intro c p
    rw [mem_picks_iff, exists_rayIndex_iff]
  · show (project cfg cloud).ranges.length = _
    rw [hproject, hlength]
  · intro k r hr
    have hr' : (projectTerrain cfg cloud).ranges[k]? = some r := hproject ▸ hr
    have hk : k < rayCount cfg := by
      rw [← hlength]
      exact (List.getElem?_eq_some_iff.mp hr').1
    rw [ranges_terrain cfg cloud hk] at hr'
    rw [filter_bin_picks cfg cloud hk, ← Option.some.inj hr']
    exact isLeastOf_foldl _ _
  · intro a i ha hi hpos p hp hin
    exact bin_nonneg ha hi hpos hp hin

theorem terrain_scan_exact_scene :
    sceneConfig.terrainGroundFilter = true ∧ sceneConfig.publishFilteredCloud = true ∧
    (cloudCallback sceneConfig [⟨1.0, 0.0, 0.5⟩]).scan.ranges.length = rayCount sceneConfig := by
  obtain ⟨⟨_, -, -, -, hlength, -⟩, -⟩ :=
    terrain_scan_exact sceneConfig [⟨1.0, 0.0, 0.5⟩] rfl rfl
  exact ⟨rfl, rfl, hlength⟩

end PointCloudToLaserScan
end RtkLocalization
