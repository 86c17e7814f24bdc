import RtkLocalization.NonFiniteReturns

/-!
# The order of the points in the cloud

Counts, sorted elevations, minima and the percentile of adaptive mode forget the
order of the cloud, and so do the ranges of plain and adaptive mode. In terrain
mode a cell is represented by the first of its nearest obstacle points: where these
tie across rays, the order decides which ray gets the cell. The ranges are the same
for every order exactly when every such tie is covered (`ranges_perm_iff`).
-/

namespace RtkLocalization
namespace PointCloudToLaserScan

open Scatter Selection PyFloat

section Perm
variable {cfg : Config (PyFloat ℝ)} {cloud cloud' : List (Point (PyFloat ℝ))}

theorem sorted_of_perm {zs ws : List (PyFloat ℝ)} (hperm : zs.Perm ws) (hnan : ∀ z ∈ zs, z ≠ nan) :
    sorted zs = sorted ws :=
  mergeSort_notAfter_of_perm hperm hnan

/-! ### Plain and adaptive mode -/

theorem effectiveMinHeight_of_perm (hperm : cloud.Perm cloud') :
    effectiveMinHeight cfg cloud = effectiveMinHeight cfg cloud' := by
  have hcand : (cloud.filterMap (groundCandidate cfg)).Perm
      (cloud'.filterMap (groundCandidate cfg)) := hperm.filterMap _
  have hnan : ∀ z ∈ cloud.filterMap (groundCandidate cfg), z ≠ nan := by
    intro z hz
    obtain ⟨p, -, hp⟩ := List.mem_filterMap.mp hz
    exact ((groundCandidate_eq_some_iff cfg p z).mp hp).2.1
  unfold effectiveMinHeight
  simp only [hcand.length_eq, sorted_of_perm hcand hnan]

theorem projectHeights_eq (cfg : Config (PyFloat ℝ)) (cloud : List (Point (PyFloat ℝ))) :
    projectHeights cfg cloud
      = projectAll cfg (pointRay cfg (effectiveMinHeight cfg cloud)) Point.range id cloud := rfl

theorem isfinite_range_of_isFinite {p : Point (PyFloat ℝ)} (h : p.isFinite = true) :
    isfinite p.range = true := by
  obtain ⟨x, y, z, rfl⟩ := Point.exists_fin_of_isFinite h
  rfl

theorem range_ne_nan_of_pointRay {m : PyFloat ℝ} {k : ℕ} {r : PyFloat ℝ}
    (h : r ∈ (naming (pointRay cfg m) cloud k).map Point.range) : r ≠ nan := by
  obtain ⟨p, hp, rfl⟩ := List.mem_map.mp h
  have hfin := isFinite_of_pointRay ((mem_naming _).mp hp).2
  exact ne_nan_of_isfinite (isfinite_range_of_isFinite hfin)

theorem ranges_projectHeights_of_perm (hperm : cloud.Perm cloud') :
    (projectHeights cfg cloud).ranges = (projectHeights cfg cloud').ranges := by
  rw [projectHeights_eq, projectHeights_eq, effectiveMinHeight_of_perm hperm, ranges_projectAll,
    ranges_projectAll]
  apply List.map_congr_left
  intro k _
  have hray : (naming (pointRay cfg (effectiveMinHeight cfg cloud')) cloud k).Perm
      (naming (pointRay cfg (effectiveMinHeight cfg cloud')) cloud' k) := hperm.filter _
  have hmin := foldl_pyMin_of_perm (hray.map Point.range) (fun r => range_ne_nan_of_pointRay)
    (noReturn cfg)
  rw [List.foldl_map, List.foldl_map] at hmin
  exact hmin

/-! ### The passes of terrain mode -/

theorem minElement_of_perm {zs ws : List (PyFloat ℝ)} (hperm : zs.Perm ws)
    (hfin : ∀ z ∈ zs, isfinite z = true) : minElement zs = minElement ws := by
  have hloop : ∀ us : List (PyFloat ℝ), us ≠ [] → (∀ u ∈ us, isfinite u = true) →
      minElement us = us.foldl pyMin inf := by
    intro us hne hus
    cases us with
    | nil => exact absurd rfl hne
    | cons u us =>
      obtain ⟨x, rfl⟩ := exists_fin_of_isfinite (hus u List.mem_cons_self)
      have hstart : pyMin inf (fin x) = fin x := if_pos (fin_lt_inf x)
      rw [List.foldl_cons, hstart]
      rfl
  by_cases hnil : zs = []
  · subst hnil
    rw [List.nil_perm.mp hperm]
  · have hnil' : ws ≠ [] := by
      intro h
      subst h
      exact hnil (List.perm_nil.mp hperm)
    rw [hloop zs hnil hfin, hloop ws hnil' fun w hw => hfin w (hperm.mem_iff.mpr hw)]
    exact foldl_pyMin_of_perm hperm (fun z hz => ne_nan_of_isfinite (hfin z hz)) inf

theorem minElement_mem {zs : List (PyFloat ℝ)} (hne : zs ≠ []) : minElement zs ∈ zs := by
  cases zs with
  | nil => exact absurd rfl hne
  | cons z zs => exact List.mem_cons.mpr (isLeastOf_foldl z zs).mem

theorem groundZ_of_perm {zs ws : List (PyFloat ℝ)} (hperm : zs.Perm ws)
    (hfin : ∀ z ∈ zs, isfinite z = true) : groundZ cfg zs = groundZ cfg ws := by
  have hsorted := sorted_of_perm hperm fun z hz => ne_nan_of_isfinite (hfin z hz)
  unfold groundZ
  rw [hperm.length_eq, hsorted, minElement_of_perm hperm hfin]

theorem isfinite_elevation {c : ℕ} {z : PyFloat ℝ} (h : z ∈ elevationsOf cfg cloud c) :
    isfinite z = true := by
  obtain ⟨p, -, hp⟩ := List.mem_flatMap.mp h
  obtain ⟨n, hn, rfl⟩ := List.mem_map.mp hp
  have htarget := (List.mem_filter.mp hn).1
  unfold elevationTargets at htarget
  cases hcell : statisticsCell cfg p with
  | none =>
    rw [hcell] at htarget
    cases htarget
  | some d =>
    obtain ⟨x, y, w, rfl⟩ := Point.exists_fin_of_isFinite (statisticsCell_some hcell).1
    rfl

theorem planarGround_of_perm (hperm : cloud.Perm cloud') :
    planarGround cfg (statistics cfg cloud) = planarGround cfg (statistics cfg cloud') := by
  rw [planarGround_eq, planarGround_eq]
  apply List.map_congr_left
  intro c _
  exact groundZ_of_perm (hperm.flatMap_right _) fun z hz => isfinite_elevation hz

theorem planarPointCount_of_perm (hperm : cloud.Perm cloud') :
    (statistics cfg cloud).planarPointCount = (statistics cfg cloud').planarPointCount := by
  rw [planarPointCount_eq, planarPointCount_eq]
  apply List.map_congr_left
  intro c _
  exact (hperm.filter _).length_eq

noncomputable def isObstacle (cfg : Config (PyFloat ℝ)) (cloud : List (Point (PyFloat ℝ))) (c : ℕ)
    (p : Point (PyFloat ℝ)) : Bool :=
  decide (obstacleCell cfg (statistics cfg cloud).planarPointCount
    (planarGround cfg (statistics cfg cloud)) p = some c)

theorem obstaclePoints_of_perm (hperm : cloud.Perm cloud') (c : ℕ) :
    obstaclePoints cfg cloud' c = cloud'.filter (isObstacle cfg cloud c) := by
  unfold obstaclePoints isObstacle naming
  rw [planarGround_of_perm hperm, planarPointCount_of_perm hperm]

theorem perm_obstaclePoints (hperm : cloud.Perm cloud') (c : ℕ) :
    (obstaclePoints cfg cloud c).Perm (obstaclePoints cfg cloud' c) := by
  rw [obstaclePoints_of_perm (List.Perm.refl cloud), obstaclePoints_of_perm hperm]
  exact hperm.filter _

end Perm

/-! ### Ties of a cell -/

section Ties
variable (cfg : Config (PyFloat ℝ)) (cloud : List (Point (PyFloat ℝ)))

/-- A cell of the grid with enough obstacle points. -/
def Confirmed (c : ℕ) : Prop :=
  c < cfg.cellNum ∧ cfg.terrainMinObstaclePoints ≤ (obstaclePoints cfg cloud c).length

/-- An obstacle point of cell `c` that no other is nearer than. -/
def Nearest (c : ℕ) (p : Point (PyFloat ℝ)) : Prop :=
  Least Point.range p (obstaclePoints cfg cloud c)

/-- Whenever a confirmed cell has nearest points on ray `k` and off it, its range is
not below the no-return value, or not below the range of another confirmed cell
whose nearest points are all on ray `k`. -/
def TiesHarmless : Prop :=
  ∀ k c p q, Confirmed cfg cloud c → Nearest cfg cloud c p → Nearest cfg cloud c q →
    rayIndex cfg p = some k → rayIndex cfg q ≠ some k →
    ¬ p.range < noReturn cfg ∨ ∃ d u, Confirmed cfg cloud d ∧ Nearest cfg cloud d u ∧
      (∀ v, Nearest cfg cloud d v → rayIndex cfg v = some k) ∧ ¬ p.range < u.range

theorem mem_rangesOn_iff (k : ℕ) (r : PyFloat ℝ) :
    r ∈ rangesOn cfg cloud k ↔ ∃ c p, Confirmed cfg cloud c ∧
      FirstLeast Point.range p (obstaclePoints cfg cloud c) ∧ rayIndex cfg p = some k ∧
      r = p.range := by
  simp only [rangesOn, List.mem_map, mem_naming, List.mem_range, cellRay_eq_some_iff]
  refine ⟨fun h => ?_, fun h => ?_⟩
  · obtain ⟨c, ⟨hc, hcount, p, hp, hray⟩, rfl⟩ := h
    exact ⟨c, p, ⟨hc, hcount⟩, hp, hray, (cellObstacle_of_firstLeast cfg cloud hp).1⟩
  · obtain ⟨c, p, ⟨hc, hcount⟩, hp, hray, rfl⟩ := h
    exact ⟨c, ⟨hc, hcount, p, hp, hray⟩, (cellObstacle_of_firstLeast cfg cloud hp).1⟩

variable {cfg cloud}
variable {cloud' : List (Point (PyFloat ℝ))}

theorem rangesOn_ne_nan {k : ℕ} : ∀ r ∈ rangesOn cfg cloud k, r ≠ nan := by
  intro r hr
  obtain ⟨c, p, -, hp, -, rfl⟩ := (mem_rangesOn_iff cfg cloud k r).mp hr
  exact range_ne_nan _ _ hp.least.1

theorem Confirmed.exists_firstLeast {c : ℕ} (h : Confirmed cfg cloud c) :
    ∃ p, FirstLeast Point.range p (obstaclePoints cfg cloud c) :=
  exists_firstLeast_of_count cfg cloud h.2

theorem Confirmed.of_perm (hperm : cloud.Perm cloud') {c : ℕ} (h : Confirmed cfg cloud c) :
    Confirmed cfg cloud' c :=
  ⟨h.1, (perm_obstaclePoints hperm c).length_eq ▸ h.2⟩

theorem Nearest.of_perm (hperm : cloud.Perm cloud') {c : ℕ} {p : Point (PyFloat ℝ)}
    (h : Nearest cfg cloud c p) : Nearest cfg cloud' c p :=
  Least.of_perm h (perm_obstaclePoints hperm c)

theorem TiesHarmless.of_perm (hperm : cloud.Perm cloud') (h : TiesHarmless cfg cloud) :
    TiesHarmless cfg cloud' := by
  intro k c p q hc hp hq hon hoff
  obtain hfar | ⟨d, u, hd, hu, hall, hle⟩ :=
    h k c p q (hc.of_perm hperm.symm) (hp.of_perm hperm.symm) (hq.of_perm hperm.symm) hon hoff
  · exact Or.inl hfar
  · exact Or.inr ⟨d, u, hd.of_perm hperm, hu.of_perm hperm,
      fun v hv => hall v (hv.of_perm hperm.symm), hle⟩

/-- A cell that competes for ray `k` in one order is matched in the other: by itself,
or by the cell that covers the tie. -/
theorem rangesOn_covered (hperm : cloud.Perm cloud') (h : TiesHarmless cfg cloud) {k : ℕ}
    {r : PyFloat ℝ} (hr : r ∈ rangesOn cfg cloud k) :
    ¬ r < noReturn cfg ∨ ∃ s ∈ rangesOn cfg cloud' k, ¬ r < s := by
  obtain ⟨c, p, hc, hp, hon, rfl⟩ := (mem_rangesOn_iff cfg cloud k r).mp hr
  obtain ⟨q, hq⟩ := (hc.of_perm hperm).exists_firstLeast
  have hqnear : Nearest cfg cloud c q := Nearest.of_perm hperm.symm hq.least
  by_cases hqon : rayIndex cfg q = some k
  · refine Or.inr ⟨q.range, ?_, hqnear.2 p hp.least.1⟩
    exact (mem_rangesOn_iff cfg cloud' k _).mpr ⟨c, q, hc.of_perm hperm, hq, hqon, rfl⟩
  · obtain hfar | ⟨d, u, hd, hu, hall, hle⟩ := h k c p q hc hp.least hqnear hon hqon
    · exact Or.inl hfar
    · obtain ⟨v, hv⟩ := (hd.of_perm hperm).exists_firstLeast
      have hvnear : Nearest cfg cloud d v := Nearest.of_perm hperm.symm hv.least
      refine Or.inr ⟨v.range, ?_, fun hlt => hle ?_⟩
      · exact (mem_rangesOn_iff cfg cloud' k _).mpr
          ⟨d, v, hd.of_perm hperm, hv, hall v hvnear, rfl⟩
      · exact lt_of_lt_of_not_lt (range_ne_nan _ _ hvnear.1) (range_ne_nan _ _ hu.1) hlt
          (hvnear.2 u hu.1)

theorem ranges_projectTerrain_of_perm (hperm : cloud.Perm cloud') (h : TiesHarmless cfg cloud) :
    (projectTerrain cfg cloud).ranges = (projectTerrain cfg cloud').ranges := by
  rw [ranges_projectTerrain, ranges_projectTerrain]
  apply List.map_congr_left
  intro k _
  exact foldl_pyMin_congr rangesOn_ne_nan rangesOn_ne_nan
    (fun r hr => rangesOn_covered hperm h hr)
    fun s hs => rangesOn_covered hperm.symm (h.of_perm hperm) hs

/-! ### Two orders that show a tie -/

/-- With the points that satisfy `b` first, a cell that has such a nearest point is
represented by one. -/
theorem front_firstLeast {b : Point (PyFloat ℝ) → Bool} {c : ℕ} {p q : Point (PyFloat ℝ)}
    (hp : FirstLeast Point.range p (obstaclePoints cfg (front b cloud) c))
    (hq : Nearest cfg cloud c q) (hb : b q = true) : b p = true := by
  have hperm := (front_perm b cloud).symm
  have hle := (Nearest.of_perm hperm hq).2 p hp.least.1
  rw [obstaclePoints_of_perm hperm, filter_front,
    ← obstaclePoints_of_perm (List.Perm.refl cloud)] at hp
  exact hp.front hq.1 hb hle

/-- The points of ray `k` first. -/
noncomputable def rayFirst (cfg : Config (PyFloat ℝ)) (k : ℕ) (cloud : List (Point (PyFloat ℝ))) :
    List (Point (PyFloat ℝ)) :=
  front (fun p => decide (rayIndex cfg p = some k)) cloud

/-- The points of ray `k` last. -/
noncomputable def rayLast (cfg : Config (PyFloat ℝ)) (k : ℕ) (cloud : List (Point (PyFloat ℝ))) :
    List (Point (PyFloat ℝ)) :=
  front (fun p => !decide (rayIndex cfg p = some k)) cloud

theorem not_lt_rayFirst {k c : ℕ} {p : Point (PyFloat ℝ)} (hc : Confirmed cfg cloud c)
    (hp : Nearest cfg cloud c p) (hon : rayIndex cfg p = some k) (hreturn : noReturn cfg ≠ nan) :
    ¬ p.range < (rangesOn cfg (rayFirst cfg k cloud) k).foldl pyMin (noReturn cfg) := by
  have hperm : cloud.Perm (rayFirst cfg k cloud) := (front_perm _ cloud).symm
  obtain ⟨u, hu⟩ := (hc.of_perm hperm).exists_firstLeast
  have huon : rayIndex cfg u = some k :=
    of_decide_eq_true (front_firstLeast hu hp (decide_eq_true hon))
  have hmem := (mem_rangesOn_iff cfg _ k u.range).mpr ⟨c, u, hc.of_perm hperm, hu, huon, rfl⟩
  intro hlt
  have hnearer : p.range < u.range :=
    lt_of_lt_of_not_lt (foldl_pyMin_ne_nan hreturn rangesOn_ne_nan) (range_ne_nan _ _ hu.least.1)
      hlt ((isLeastOf_foldl _ _).not_lt _ hmem)
  exact hu.least.2 p (hp.of_perm hperm).1 hnearer

theorem lt_rayLast {k : ℕ} {r : PyFloat ℝ} (hnear : r < noReturn cfg)
    (hcover : ∀ d u, Confirmed cfg cloud d → Nearest cfg cloud d u →
      (∀ v, Nearest cfg cloud d v → rayIndex cfg v = some k) → r < u.range) :
    r < (rangesOn cfg (rayLast cfg k cloud) k).foldl pyMin (noReturn cfg) := by
  have hperm : (rayLast cfg k cloud).Perm cloud := front_perm _ cloud
  obtain hmem | hmem :=
    (isLeastOf_foldl (noReturn cfg) (rangesOn cfg (rayLast cfg k cloud) k)).mem
  · rw [hmem]
    exact hnear
  · obtain ⟨d, u, hd, hu, huon, hrange⟩ := (mem_rangesOn_iff cfg _ k _).mp hmem
    rw [hrange]
    refine hcover d u (hd.of_perm hperm) (Nearest.of_perm hperm hu.least) ?_
    intro v hv
    by_contra hvoff
    have huoff := front_firstLeast hu hv (by simp [hvoff])
    simp [huon] at huoff

/-- A nearest point of cell `c` on ray `k`, with nothing to cover it: the ray gets its
range when the points on the ray come first, and does not when they come last. -/
theorem ranges_ne_of_tie {k c : ℕ} {p : Point (PyFloat ℝ)} (hc : Confirmed cfg cloud c)
    (hp : Nearest cfg cloud c p) (hon : rayIndex cfg p = some k) (hnear : p.range < noReturn cfg)
    (hcover : ∀ d u, Confirmed cfg cloud d → Nearest cfg cloud d u →
      (∀ v, Nearest cfg cloud d v → rayIndex cfg v = some k) → p.range < u.range) :
    (projectTerrain cfg (rayFirst cfg k cloud)).ranges
      ≠ (projectTerrain cfg (rayLast cfg k cloud)).ranges := by
  obtain ⟨-, hreturn⟩ := ne_nan_of_lt hnear
  have hk : k < rayCount cfg := ((rayIndex_eq_some_iff cfg p k).mp hon).2.2
  have hlast := lt_rayLast hnear hcover
  intro heq
  rw [ranges_projectTerrain, ranges_projectTerrain] at heq
  have hray := List.map_inj_left.mp heq k (List.mem_range.mpr hk)
  rw [← hray] at hlast
  exact not_lt_rayFirst hc hp hon hreturn hlast

end Ties

noncomputable def tieParameters : Parameters (PyFloat ℝ) :=
  { sceneParameters with
    terrainUseSorting := false
    terrainMinGroundPoints := 1
    terrainMinBlockPoints := 1
    terrainMinObstaclePoints := 1
    terrainNeighborSpread := false
    terrainMinObstacleRelZ := 0.0 }

/-- The scene of two rays, where a single point is a ground and an obstacle. -/
noncomputable def tieConfig : Config (PyFloat ℝ) := Config.ofParameters tieParameters

theorem terrainPlanarSize_tieConfig : tieConfig.terrainPlanarSize = fin 0.2 :=
  terrainPlanarSize_ofParameters rfl

theorem cellCoordinate_tieConfig (x : ℝ) :
    cellCoordinate tieConfig (fin x) = ⌊(x + 0.1) / 0.2⌋ + 25 := by
  have hhalf : (0.5 : PyFloat ℝ) = fin 0.5 := ofScientific_eq _ _ _
  show CppFloat.floorInt ((fin x + tieConfig.terrainPlanarSize * 0.5) / tieConfig.terrainPlanarSize)
    + 25 = _
  rw [terrainPlanarSize_tieConfig, hhalf, fin_mul_fin, fin_add_fin, fin_div_fin _ (by norm_num)]
  show ⌊(x + 0.2 * 0.5) / 0.2⌋ + 25 = _
  norm_num

section Ground
variable {x y : ℝ} {c : ℕ} (hcell : toCellIndex tieConfig (finitePoint x y 0) = some c)
  (hnear : Planar.hypot x y ≤ 5)
include hcell hnear

theorem statisticsCell_tieConfig : statisticsCell tieConfig (finitePoint x y 0) = some c := by
  have hnonneg := Planar.hypot_nonneg x y
  have hfin : (finitePoint x y 0).isFinite = true := rfl
  have hrange : (finitePoint x y 0).range = fin (Planar.hypot x y) := rfl
  have hz : (finitePoint x y 0).z = fin 0 := rfl
  have hproc : tieConfig.terrainPlanarSize
      * CppMath.ofNat (tieConfig.terrainPlanarWidth / 2 + 1).toNat = fin 5.2 := by
    rw [terrainPlanarSize_tieConfig]
    show fin 0.2 * fin ((26 : ℕ) : ℝ) = fin 5.2
    rw [fin_mul_fin]
    norm_num
  have hratio : tieConfig.terrainDisRatioZ = fin 0.2 := ofScientific_eq _ _ _
  have hmin : tieConfig.terrainMinRelZ = fin (-1.5) := rfl
  have hmax : tieConfig.terrainMaxRelZ = fin 0.35 := ofScientific_eq _ _ _
  unfold statisticsCell
  simp only [hrange, hfin, hz, hproc, hratio, hmin, hmax, fin_mul_fin, fin_add_fin, fin_sub_fin,
    fin_lt_fin, isfinite_fin, not_true_eq_false, false_or, if_false]
  rw [if_neg (by linarith), if_neg (by push Not; constructor <;> linarith)]
  exact hcell

theorem obstacleCell_tieConfig {count : List ℕ} {ground : List (PyFloat ℝ)}
    (hcount : 1 ≤ count.getD c 0) (hground : ground.getD c CppMath.quietNaN = fin 0) :
    obstacleCell tieConfig count ground (finitePoint x y 0) = some c := by
  have hnonneg := Planar.hypot_nonneg x y
  have hfin : (finitePoint x y 0).isFinite = true := rfl
  have hrange : (finitePoint x y 0).range = fin (Planar.hypot x y) := rfl
  have hz : (finitePoint x y 0).z = fin 0 := rfl
  have hmin : tieConfig.rangeMin = fin 0 := sceneParameters_ranges.1
  have hmax : tieConfig.rangeMax = fin 100 := sceneParameters_ranges.2
  have hblock : tieConfig.terrainMinBlockPoints = 1 := rfl
  have hdrop : tieConfig.terrainConsiderDrop = false := rfl
  have hzero : atLeast (0.0 : PyFloat ℝ) 0.0 = fin 0 := by
    rw [PyFloat.zero_literal, atLeast, ite_self]
  have hrel : tieConfig.terrainMinObstacleRelZ = fin 0 := hzero
  have hslope : tieConfig.terrainObstacleRangeSlope = fin 0 := hzero
  have hheight : tieConfig.terrainVehicleHeight = fin 1.2 := by
    show (if (1.2 : PyFloat ℝ) ≤ 0.0 then (1.2 : PyFloat ℝ) else 1.2) = fin 1.2
    rw [ite_self]
    exact ofScientific_eq _ _ _
  have hstands : standsOut tieConfig (count.getD c 0)
      (ground.getD c CppMath.quietNaN) (finitePoint x y 0) = true := by
    have hlow : ¬ ((count.getD c 0 : ℕ) : ℤ) < 1 := by omega
    unfold standsOut
    simp only [hground, hz, hrange, hblock, hdrop, hrel, hslope, hheight, hlow, fin_sub_fin,
      fin_mul_fin, fin_add_fin, isfinite_fin]
    norm_num
  unfold obstacleCell
  rw [if_neg (by simp [hfin, hrange, hmin, hmax]; constructor <;> linarith), hcell]
  simp only [hstands, if_true]

end Ground

/-! A cloud of points at height 0 in one cell: the ground of the cell is 0, and every
point is an obstacle. -/

section GroundCloud
variable {cloud : List (Point (PyFloat ℝ))} {c : ℕ} (hgrid : c < tieConfig.cellNum)
  (hcloud : ∀ p ∈ cloud, ∃ x y : ℝ, p = finitePoint x y 0 ∧
    toCellIndex tieConfig (finitePoint x y 0) = some c ∧ Planar.hypot x y ≤ 5)
include hcloud

theorem statisticsCell_of_mem {p : Point (PyFloat ℝ)} (hp : p ∈ cloud) :
    statisticsCell tieConfig p = some c := by
  obtain ⟨x, y, rfl, hxy, hnear⟩ := hcloud p hp
  exact statisticsCell_tieConfig hxy hnear

theorem elevationsOf_tieConfig : elevationsOf tieConfig cloud c = cloud.map Point.z := by
  rw [elevationsOf, List.map_eq_flatMap]
  apply List.flatMap_congr
  intro p hp
  have htargets : elevationTargets tieConfig p = [c] := by
    unfold elevationTargets
    rw [statisticsCell_of_mem hcloud hp]
    rfl
  rw [htargets, List.filter_cons_of_pos (by simp), List.filter_nil]
  rfl

theorem groundZ_tieConfig (hne : cloud ≠ []) : groundZ tieConfig (cloud.map Point.z) = fin 0 := by
  have hmany : ¬ ((cloud.map Point.z).length : ℤ) < tieConfig.terrainMinGroundPoints := by
    show ¬ ((cloud.map Point.z).length : ℤ) < 1
    have hpos := List.length_pos_of_ne_nil hne
    rw [List.length_map]
    omega
  obtain ⟨p, hp, hz⟩ := List.mem_map.mp (minElement_mem (mt List.map_eq_nil_iff.mp hne))
  obtain ⟨x, y, rfl, -, -⟩ := hcloud p hp
  rw [groundZ, if_neg hmany]
  exact hz.symm

include hgrid

theorem planarPointCount_tieConfig :
    (statistics tieConfig cloud).planarPointCount.getD c 0 = cloud.length := by
  have hall : naming (statisticsCell tieConfig) cloud c = cloud :=
    List.filter_eq_self.mpr fun p hp => decide_eq_true (statisticsCell_of_mem hcloud hp)
  rw [planarPointCount_eq, List.getD_eq_getElem?_getD, List.getElem?_map,
    List.getElem?_range hgrid, Option.map_some, hall, Option.getD_some]

theorem planarGround_tieConfig (hne : cloud ≠ []) :
    (planarGround tieConfig (statistics tieConfig cloud)).getD c CppMath.quietNaN = fin 0 := by
  rw [planarGround_eq, List.getD_eq_getElem?_getD, List.getElem?_map, List.getElem?_range hgrid,
    Option.map_some, elevationsOf_tieConfig hcloud, groundZ_tieConfig hcloud hne, Option.getD_some]

theorem obstaclePoints_tieConfig (hne : cloud ≠ []) : obstaclePoints tieConfig cloud c = cloud := by
  have hcount := planarPointCount_tieConfig hgrid hcloud
  have hground := planarGround_tieConfig hgrid hcloud hne
  have hpos := List.length_pos_of_ne_nil hne
  apply List.filter_eq_self.mpr
  intro p hp
  obtain ⟨x, y, rfl, hxy, hnear⟩ := hcloud p hp
  exact decide_eq_true (obstacleCell_tieConfig hxy hnear (by omega) hground)

end GroundCloud

/-- The cell `(25 + i, 25 + j)` of the grid, for the floors of the two coordinates. -/
theorem toCellIndex_of_floor {x y : ℝ} {i j : ℤ} (hx : ⌊(x + 0.1) / 0.2⌋ = i)
    (hy : ⌊(y + 0.1) / 0.2⌋ = j) (hi : -25 ≤ i ∧ i ≤ 25) (hj : -25 ≤ j ∧ j ≤ 25) :
    toCellIndex tieConfig (finitePoint x y 0)
      = some (51 * (i + 25).toNat + (j + 25).toNat) := by
  have hrow : cellCoordinate tieConfig (fin x) = i + 25 := by rw [cellCoordinate_tieConfig, hx]
  have hcol : cellCoordinate tieConfig (fin y) = j + 25 := by rw [cellCoordinate_tieConfig, hy]
  have hwidth : tieConfig.terrainPlanarWidth = 51 := rfl
  unfold toCellIndex
  simp only [finitePoint, hrow, hcol, hwidth]
  rw [if_neg (by omega)]
  rfl

theorem toCellIndex_tieConfig {y : ℝ} (hy : |y| ≤ 0.05) :
    toCellIndex tieConfig (finitePoint 1 y 0) = some 1555 := by
  obtain ⟨hlow, hhigh⟩ := abs_le.mp hy
  have hrow : ⌊((1 : ℝ) + 0.1) / 0.2⌋ = 5 := by
    rw [Int.floor_eq_iff]
    norm_num
  have hcol : ⌊(y + 0.1) / 0.2⌋ = 0 := by
    rw [Int.floor_eq_zero_iff]
    refine ⟨div_nonneg (by linarith) (by norm_num), ?_⟩
    rw [div_lt_one (by norm_num)]
    linarith
  exact toCellIndex_of_floor hrow hcol (by omega) (by omega)

theorem hypot_tie {y : ℝ} (hy : |y| ≤ 0.05) : Planar.hypot 1 y ≤ 5 := by
  have hsq := Planar.hypot_sq 1 y
  have hnonneg := Planar.hypot_nonneg 1 y
  obtain ⟨hlow, hhigh⟩ := abs_le.mp hy
  nlinarith

noncomputable def tieCloud : List (Point (PyFloat ℝ)) :=
  [finitePoint 1.0 0.05 0.0, finitePoint 1.0 (-0.05) 0.0]

theorem tieCloud_eq : tieCloud = [finitePoint 1 0.05 0, finitePoint 1 (-0.05) 0] := by
  rw [tieCloud]
  norm_num

theorem exists_of_mem_tieCloud {p : Point (PyFloat ℝ)} (h : p ∈ tieCloud) :
    ∃ y : ℝ, |y| ≤ 0.05 ∧ p = finitePoint 1 y 0 ∧ p.range = fin (Planar.hypot 1 0.05) := by
  rw [tieCloud_eq, List.mem_cons, List.mem_singleton] at h
  obtain rfl | rfl := h
  · exact ⟨0.05, by norm_num [abs_of_pos], rfl, rfl⟩
  · refine ⟨-0.05, by norm_num [abs_of_pos], rfl, ?_⟩
    show fin (Planar.hypot 1 (-0.05)) = _
    rw [Planar.hypot, Planar.hypot, neg_mul_neg]

theorem obstaclePoints_tieCloud : obstaclePoints tieConfig tieCloud 1555 = tieCloud := by
  refine obstaclePoints_tieConfig (by decide) ?_ (List.cons_ne_nil _ _)
  intro p hp
  obtain ⟨y, hy, rfl, -⟩ := exists_of_mem_tieCloud hp
  exact ⟨1, y, rfl, toCellIndex_tieConfig hy, hypot_tie hy⟩

theorem nearest_tieCloud {p : Point (PyFloat ℝ)} (hp : p ∈ tieCloud) :
    Nearest tieConfig tieCloud 1555 p := by
  unfold Nearest
  rw [obstaclePoints_tieCloud]
  refine ⟨hp, ?_⟩
  intro q hq
  obtain ⟨-, -, -, hprange⟩ := exists_of_mem_tieCloud hp
  obtain ⟨-, -, -, hqrange⟩ := exists_of_mem_tieCloud hq
  rw [hprange, hqrange]
  exact irrefl _

theorem confirmed_tieCloud : Confirmed tieConfig tieCloud 1555 := by
  refine ⟨by decide, ?_⟩
  rw [obstaclePoints_tieCloud]
  decide

theorem rayIndex_tieConfig (y : ℝ) :
    rayIndex tieConfig (finitePoint 1 y 0) = some (if y < 0 then 0 else 1) := by
  obtain ⟨hmin, hmax, hinc⟩ := sceneParameters_angles
  exact rayIndex_of_two_rays hmin hmax hinc one_pos y _

end PointCloudToLaserScan
end RtkLocalization
