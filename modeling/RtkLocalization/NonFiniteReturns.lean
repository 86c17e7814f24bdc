import RtkLocalization.TerrainScan
import RtkLocalization.Lib.OrderStatistics

/-!
# Points with NaN or infinite coordinates

Four of the five loops over the cloud skip every point that is not finite. The
ground estimate of adaptive mode only skips NaN: a point with an infinite height
at a finite planar position becomes a sample, shifts the percentile and can even
be the percentile. Without such points the callback ignores all others that are
not finite; with them it can hide or show any other point, unless the two height
limits coincide (`nonfinite_ignored`).
-/

namespace RtkLocalization
namespace PointCloudToLaserScan

open Scatter PyFloat

section Loops
variable {α : Type} [Sub α] [Div α] [OfScientific α] [IsFinite α] [CppMath α] [LT α] [DecidableLT α]

theorem isFinite_of_pointRay {cfg : Config α} {minHeight : α} {p : Point α} {k : ℕ}
    (h : pointRay cfg minHeight p = some k) : p.isFinite = true := by
  unfold pointRay at h
  split_ifs at h with hskip
  simp only [not_or, not_not] at hskip
  exact hskip.1

theorem projectPoint_of_not_isFinite (cfg : Config α) (minHeight : α) (s : Projection α)
    (p : Point α) (hp : p.isFinite = false) : projectPoint cfg minHeight s p = s := by
  have hnone : pointRay cfg minHeight p = none := by simp [pointRay, hp]
  rw [projectPoint, hnone]

variable [Add α] [Mul α]

theorem statistics_filter (cfg : Config α) (cloud : List (Point α)) :
    statistics cfg (cloud.filter Point.isFinite) = statistics cfg cloud := by
  apply foldl_filter_of_ignored
  intro s p hp
  have hnone : statisticsCell cfg p = none := by simp [statisticsCell, hp]
  rw [statisticsStep, hnone]

theorem obstacles_filter (cfg : Config α) (cloud : List (Point α)) :
    obstacles cfg (cloud.filter Point.isFinite) = obstacles cfg cloud := by
  unfold obstacles
  rw [statistics_filter]
  apply foldl_filter_of_ignored
  intro cells p hp
  have hnone : ∀ count ground, obstacleCell cfg count ground p = none := by
    intro count ground
    simp [obstacleCell, hp]
  rw [obstacleStep, hnone]

theorem projectHeights_filter (cfg : Config α) (cloud : List (Point α))
    (h : effectiveMinHeight cfg (cloud.filter Point.isFinite) = effectiveMinHeight cfg cloud) :
    projectHeights cfg (cloud.filter Point.isFinite) = projectHeights cfg cloud := by
  rw [projectHeights, projectHeights, h]
  exact foldl_filter_of_ignored (projectPoint_of_not_isFinite cfg _) _ _

theorem cloudCallback_congr {cfg : Config α} {cloud cloud' : List (Point α)}
    (h : project cfg cloud = project cfg cloud') :
    cloudCallback cfg cloud = cloudCallback cfg cloud' := by
  rw [cloudCallback, cloudCallback, h]

end Loops

/-! ### Samples of adaptive mode -/

/-- A planar position in the band of ranges where the ground is estimated. -/
def InEstimationRange (cfg : Config (PyFloat ℝ)) (x y : ℝ) : Prop :=
  ¬ fin (Planar.hypot x y) < cfg.groundEstimationMinRange ∧
  ¬ cfg.groundEstimationMaxRange < fin (Planar.hypot x y)

/-- A point whose infinite height adaptive mode takes for a sample of the ground. -/
def InfiniteSample (cfg : Config (PyFloat ℝ)) (p : Point (PyFloat ℝ)) : Prop :=
  ∃ x y : ℝ, p.x = fin x ∧ p.y = fin y ∧ isinf p.z = true ∧ InEstimationRange cfg x y

theorem groundCandidate_of_fin (cfg : Config (PyFloat ℝ)) (x y : ℝ) (z : PyFloat ℝ)
    [Decidable (InEstimationRange cfg x y)] :
    groundCandidate cfg ⟨fin x, fin y, z⟩
      = if z ≠ nan ∧ InEstimationRange cfg x y then some z else none := by
  have hx : CppMath.isnan (fin x) = false := rfl
  have hy : CppMath.isnan (fin y) = false := rfl
  have hz : CppMath.isnan z = true ↔ z = nan := by
    show PyFloat.isnan z = true ↔ z = nan
    cases z <;> simp [PyFloat.isnan]
  have hrange : Point.range ⟨fin x, fin y, z⟩ = fin (Planar.hypot x y) := rfl
  have hband : InEstimationRange cfg x y ↔ ¬ (fin (Planar.hypot x y) < cfg.groundEstimationMinRange ∨
      cfg.groundEstimationMaxRange < fin (Planar.hypot x y)) := not_or.symm
  unfold groundCandidate
  simp only [hx, hy, hz, hrange, isfinite_fin, Bool.false_eq_true, false_or, not_true_eq_false]
  by_cases hnan : z = nan
  · rw [if_pos hnan, if_neg fun h => h.1 hnan]
  · by_cases hin : InEstimationRange cfg x y
    · rw [if_neg hnan, if_neg (hband.mp hin), if_pos ⟨hnan, hin⟩]
    · rw [if_neg hnan, if_pos (not_not.mp (mt hband.mpr hin)), if_neg fun h => hin h.2]

/-- A position that is not finite has no range, or an infinite one. -/
theorem groundCandidate_of_not_fin (cfg : Config (PyFloat ℝ)) {x y : PyFloat ℝ} (z : PyFloat ℝ)
    (h : ¬ (isfinite x = true ∧ isfinite y = true)) : groundCandidate cfg ⟨x, y, z⟩ = none := by
  unfold groundCandidate
  cases x <;> cases y <;>
    simp_all [CppMath.isnan, PyFloat.isnan, Point.range, CppMath.hypot, PyFloatMath.hypot,
      PyFloat.isinf]

theorem groundCandidate_eq_some_iff (cfg : Config (PyFloat ℝ)) (p : Point (PyFloat ℝ))
    (z : PyFloat ℝ) :
    groundCandidate cfg p = some z ↔ p.z = z ∧ z ≠ nan ∧
      ∃ x y : ℝ, p.x = fin x ∧ p.y = fin y ∧ InEstimationRange cfg x y := by
  classical
  obtain ⟨px, py, pz⟩ := p
  by_cases hxy : isfinite px = true ∧ isfinite py = true
  · obtain ⟨x, rfl⟩ := exists_fin_of_isfinite hxy.1
    obtain ⟨y, rfl⟩ := exists_fin_of_isfinite hxy.2
    rw [groundCandidate_of_fin]
    refine ⟨fun h => ?_, fun h => ?_⟩
    · split_ifs at h with hin
      cases h
      exact ⟨rfl, hin.1, x, y, rfl, rfl, hin.2⟩
    · obtain ⟨hz, hnan, u, v, hu, hv, hin⟩ := h
      cases hz
      cases hu
      cases hv
      exact if_pos ⟨hnan, hin⟩
  · rw [groundCandidate_of_not_fin cfg pz hxy]
    refine iff_of_false nofun fun h => ?_
    obtain ⟨-, -, x, y, hx, hy, -⟩ := h
    cases hx
    cases hy
    exact hxy ⟨rfl, rfl⟩

theorem candidates_filter {cfg : Config (PyFloat ℝ)} {cloud : List (Point (PyFloat ℝ))}
    (h : ∀ p ∈ cloud, ¬ InfiniteSample cfg p) :
    (cloud.filter Point.isFinite).filterMap (groundCandidate cfg)
      = cloud.filterMap (groundCandidate cfg) := by
  induction cloud with
  | nil => rfl
  | cons p cloud ih =>
    have hcloud := ih fun q hq => h q (List.mem_cons_of_mem p hq)
    cases hp : p.isFinite with
    | true =>
      rw [List.filter_cons_of_pos hp]
      simp only [List.filterMap_cons, hcloud]
    | false =>
      have hnone : groundCandidate cfg p = none := by
        apply Option.eq_none_iff_forall_ne_some.mpr
        intro z hz
        obtain ⟨hpz, hnan, x, y, hx, hy, hin⟩ := (groundCandidate_eq_some_iff cfg p z).mp hz
        refine h p List.mem_cons_self ⟨x, y, hx, hy, ?_, hin⟩
        rw [hpz]
        rw [Point.isFinite, hx, hy, hpz] at hp
        cases z with
        | fin z => cases hp
        | inf => rfl
        | neginf => rfl
        | nan => exact absurd rfl hnan
      rw [List.filter_cons_of_neg (by simp [hp]), List.filterMap_cons, hnone]
      exact hcloud

theorem cloudCallback_filter {cfg : Config (PyFloat ℝ)} {cloud : List (Point (PyFloat ℝ))}
    (h : cfg.terrainGroundFilter = true ∨ cfg.adaptiveGroundFilter = false ∨
      ∀ p ∈ cloud, ¬ InfiniteSample cfg p) :
    cloudCallback cfg (cloud.filter Point.isFinite) = cloudCallback cfg cloud := by
  apply cloudCallback_congr
  unfold project
  cases hterrain : cfg.terrainGroundFilter with
  | true =>
    rw [if_pos rfl, if_pos rfl, projectTerrain, projectTerrain, obstacles_filter]
  | false =>
    rw [if_neg Bool.false_ne_true, if_neg Bool.false_ne_true]
    apply projectHeights_filter
    unfold effectiveMinHeight
    obtain hon | hoff | hnone := h
    · rw [hterrain] at hon
      cases hon
    · rw [if_pos (by simp [hoff]), if_pos (by simp [hoff])]
    · rw [candidates_filter hnone]

/-! ### What infinite samples do -/

/-- Limits that are numbers, the percentile as the constructor clamps it. -/
structure FiniteLimits (cfg : Config (PyFloat ℝ)) (lo hi margin pct : ℝ) : Prop where
  minHeight : cfg.minHeight = fin lo
  maxHeight : cfg.maxHeight = fin hi
  groundMargin : cfg.groundMargin = fin margin
  groundPercentile : cfg.groundPercentile = fin pct
  percentile_le : pct ≤ 100

section Infinite
variable {cfg : Config (PyFloat ℝ)} {lo hi margin pct : ℝ}

/-- `std::round` of a share of the last index. -/
theorem roundSize_mul (q : ℝ) (n : ℕ) :
    CppMath.roundSize (fin q * CppMath.ofNat (n - 1)) = OrderStatistics.rank q n := rfl

theorem percentile_eq (pct : ℝ) (n : ℕ) :
    CppMath.roundSize (fin pct / 100.0 * CppMath.ofNat (n - 1))
      = OrderStatistics.rank (pct / 100) n := by
  rw [hundred_literal, fin_div_fin _ (by norm_num), roundSize_mul]

theorem percentile_lt {n : ℕ} (hn : 0 < n) (hpct : pct ≤ 100) :
    CppMath.roundSize (fin pct / 100.0 * CppMath.ofNat (n - 1)) < n := by
  rw [percentile_eq]
  exact OrderStatistics.rank_lt (by linarith) hn

theorem effectiveMinHeight_of_infinite (hadaptive : cfg.adaptiveGroundFilter = true)
    (hlimits : FiniteLimits cfg lo hi margin pct) {cloud : List (Point (PyFloat ℝ))} {n : ℕ}
    (hcand : cloud.filterMap (groundCandidate cfg) = List.replicate n inf)
    (hn : cfg.groundMinSamples ≤ n) : effectiveMinHeight cfg cloud = fin hi := by
  have hpos : 0 < n := by
    have h := cfg.groundMinSamples_pos
    omega
  have hsorted : sorted (List.replicate n (inf : PyFloat ℝ)) = List.replicate n inf :=
    List.perm_replicate.mp (List.mergeSort_perm _ _)
  have hsample : (List.replicate n (inf : PyFloat ℝ)).getD
      (CppMath.roundSize (fin pct / 100.0 * CppMath.ofNat (n - 1))) 0.0 = inf := by
    rw [List.getD_eq_getElem?_getD, List.getElem?_replicate, if_pos (percentile_lt hpos hlimits.percentile_le)]
    rfl
  have hsum : (inf : PyFloat ℝ) + fin margin = inf := rfl
  unfold effectiveMinHeight
  rw [if_neg (by simp [hadaptive]), hcand]
  simp only [List.length_replicate]
  rw [if_neg (not_lt.mpr hn), hsorted, hlimits.groundPercentile, hsample, hlimits.minHeight,
    hlimits.maxHeight, hlimits.groundMargin, hsum, if_pos (fin_lt_inf lo), if_pos (fin_lt_inf hi)]

theorem effectiveMinHeight_of_eq (hlo : cfg.minHeight = fin lo) (hhi : cfg.maxHeight = fin lo)
    (cloud : List (Point (PyFloat ℝ))) : effectiveMinHeight cfg cloud = fin lo := by
  unfold effectiveMinHeight
  simp only [hlo, hhi]
  split_ifs <;> rfl

/-- A planar position where a point between the heights changes the output. -/
def VisibleAt (cfg : Config (PyFloat ℝ)) (x y : ℝ) : Prop :=
  ¬ fin (Planar.hypot x y) < cfg.rangeMin ∧ ¬ cfg.rangeMax < fin (Planar.hypot x y) ∧
  (∃ k, rayIndex cfg ⟨fin x, fin y, fin 0⟩ = some k) ∧
  (cfg.publishFilteredCloud = true ∨ fin (Planar.hypot x y) < noReturn cfg)

def finitePoint (x y z : ℝ) : Point (PyFloat ℝ) := ⟨fin x, fin y, fin z⟩

/-- As many infinite samples over `(u, v)` as adaptive mode asks for. -/
def infiniteSamples (cfg : Config (PyFloat ℝ)) (u v : ℝ) : List (Point (PyFloat ℝ)) :=
  List.replicate cfg.groundMinSamples.toNat ⟨fin u, fin v, inf⟩

theorem groundCandidate_finitePoint {x y : ℝ} (z : ℝ) (hout : ¬ InEstimationRange cfg x y) :
    groundCandidate cfg (finitePoint x y z) = none := by
  apply Option.eq_none_iff_forall_ne_some.mpr
  intro w hw
  obtain ⟨-, -, a, b, ha, hb, h⟩ := (groundCandidate_eq_some_iff cfg _ _).mp hw
  cases ha
  cases hb
  exact hout h

theorem effectiveMinHeight_finitePoint (hadaptive : cfg.adaptiveGroundFilter = true) {x y : ℝ}
    (z : ℝ) (hout : ¬ InEstimationRange cfg x y) :
    effectiveMinHeight cfg [finitePoint x y z] = cfg.minHeight := by
  have hpos := cfg.groundMinSamples_pos
  have hnone : [finitePoint x y z].filterMap (groundCandidate cfg) = [] := by
    simp [groundCandidate_finitePoint z hout]
  unfold effectiveMinHeight
  rw [if_neg (by simp [hadaptive]), hnone]
  refine if_pos ?_
  rw [List.length_nil, Nat.cast_zero]
  omega

theorem candidates_infiniteSamples {u v x y : ℝ} (z : ℝ) (hin : InEstimationRange cfg u v)
    (hout : ¬ InEstimationRange cfg x y) :
    (infiniteSamples cfg u v ++ [finitePoint x y z]).filterMap (groundCandidate cfg)
      = List.replicate cfg.groundMinSamples.toNat inf := by
  have hsample : groundCandidate cfg ⟨fin u, fin v, inf⟩ = some inf :=
    (groundCandidate_eq_some_iff cfg _ _).mpr ⟨rfl, nofun, u, v, rfl, rfl, hin⟩
  rw [infiniteSamples, List.filterMap_append, List.filterMap_replicate_of_some hsample]
  simp [groundCandidate_finitePoint z hout]

theorem filter_infiniteSamples (cfg : Config (PyFloat ℝ)) (u v x y z : ℝ) :
    (infiniteSamples cfg u v ++ [finitePoint x y z]).filter Point.isFinite
      = [finitePoint x y z] := by
  have hsample : Point.isFinite (⟨fin u, fin v, inf⟩ : Point (PyFloat ℝ)) = false := rfl
  rw [infiniteSamples, List.filter_append, List.filter_replicate_of_neg (by simp [hsample])]
  rfl

/-- With the samples the heights start at `hi`, without them at `lo`. -/
theorem project_infiniteSamples (hterrain : cfg.terrainGroundFilter = false)
    (hadaptive : cfg.adaptiveGroundFilter = true) (hlimits : FiniteLimits cfg lo hi margin pct)
    {u v x y : ℝ} (z : ℝ)
    (hin : InEstimationRange cfg u v) (hout : ¬ InEstimationRange cfg x y) :
    project cfg (infiniteSamples cfg u v ++ [finitePoint x y z])
      = projectPoint cfg (fin hi) (noProjection cfg) (finitePoint x y z) ∧
    project cfg [finitePoint x y z]
      = projectPoint cfg (fin lo) (noProjection cfg) (finitePoint x y z) := by
  have hmany : cfg.groundMinSamples ≤ cfg.groundMinSamples.toNat := Int.self_le_toNat _
  have hhigh := effectiveMinHeight_of_infinite hadaptive hlimits
    (candidates_infiniteSamples z hin hout) hmany
  have hmode : ∀ cloud, project cfg cloud = projectHeights cfg cloud := fun cloud =>
    if_neg (by simp [hterrain])
  rw [hmode, hmode, projectHeights, projectHeights, hhigh,
    effectiveMinHeight_finitePoint hadaptive z hout, hlimits.minHeight,
    ← foldl_filter_of_ignored (projectPoint_of_not_isFinite cfg (fin hi)),
    filter_infiniteSamples]
  exact ⟨rfl, rfl⟩

theorem projectPoint_finitePoint {x y z m : ℝ} (hvisible : VisibleAt cfg x y)
    (hhi : cfg.maxHeight = fin hi) (hz : z ≤ hi) :
    (z < m → projectPoint cfg (fin m) (noProjection cfg) (finitePoint x y z) = noProjection cfg) ∧
    (m ≤ z → ∃ k < rayCount cfg, projectPoint cfg (fin m) (noProjection cfg) (finitePoint x y z)
      = (noProjection cfg).add cfg k (fin (Planar.hypot x y)) (finitePoint x y z)) := by
  obtain ⟨hmin, hmax, ⟨k, hk⟩, -⟩ := hvisible
  have hfin : (finitePoint x y z).isFinite = true := rfl
  have hpz : (finitePoint x y z).z = fin z := rfl
  have hrange : (finitePoint x y z).range = fin (Planar.hypot x y) := rfl
  have hray : rayIndex cfg (finitePoint x y z) = some k := hk
  have hcount : k < rayCount cfg := ((rayIndex_eq_some_iff cfg _ k).mp hray).2.2
  constructor
  · intro hlt
    have hnone : pointRay cfg (fin m) (finitePoint x y z) = none := by
      rw [pointRay, hpz]
      exact if_pos (Or.inr (Or.inr ((fin_lt_fin z m).mpr hlt)))
    rw [projectPoint, hnone]
  · intro hle
    have hsome : pointRay cfg (fin m) (finitePoint x y z) = some k := by
      rw [pointRay, hpz, hhi, if_neg (by simp [hfin, not_lt.mpr hz, not_lt.mpr hle]), hrange,
        if_neg (by simp [hmin, hmax]), hray]
    refine ⟨k, hcount, ?_⟩
    rw [projectPoint, hsome, hrange]

theorem callback_ne_of_add {x y z : ℝ} {k : ℕ} (hk : k < rayCount cfg)
    (hmark : cfg.publishFilteredCloud = true ∨ fin (Planar.hypot x y) < noReturn cfg)
    {cloud cloud' : List (Point (PyFloat ℝ))}
    (hadd : project cfg cloud
      = (noProjection cfg).add cfg k (fin (Planar.hypot x y)) (finitePoint x y z))
    (hempty : project cfg cloud' = noProjection cfg) :
    cloudCallback cfg cloud ≠ cloudCallback cfg cloud' := by
  intro heq
  obtain hpublish | hlt := hmark
  · have hcloud : (if cfg.publishFilteredCloud then some (project cfg cloud).acceptedPoints else none)
        = if cfg.publishFilteredCloud then some (project cfg cloud').acceptedPoints else none :=
      congrArg Output.filteredCloud heq
    rw [if_pos hpublish, if_pos hpublish, hadd, hempty, Projection.add, if_pos hpublish] at hcloud
    cases hcloud
  · have hranges : (project cfg cloud).ranges = (project cfg cloud').ranges :=
      congrArg (fun o => o.scan.ranges) heq
    rw [hadd, hempty] at hranges
    have hray : ((List.replicate (rayCount cfg) (noReturn cfg)).modify k
        (shorten (fin (Planar.hypot x y))))[k]?
        = (List.replicate (rayCount cfg) (noReturn cfg))[k]? := congrArg (·[k]?) hranges
    have hshort : shorten (fin (Planar.hypot x y)) (noReturn cfg) = fin (Planar.hypot x y) :=
      if_pos hlt
    rw [List.getElem?_modify_eq, List.getElem?_replicate, if_pos hk, Option.map_eq_map,
      Option.map_some, hshort, Option.some_inj] at hray
    rw [← hray, fin_lt_fin] at hlt
    exact lt_irrefl _ hlt

theorem infiniteSamples_matter (hterrain : cfg.terrainGroundFilter = false)
    (hadaptive : cfg.adaptiveGroundFilter = true) (hlimits : FiniteLimits cfg lo hi margin pct)
    {u v x y : ℝ}
    (hin : InEstimationRange cfg u v) (hout : ¬ InEstimationRange cfg x y)
    (hvisible : VisibleAt cfg x y) (hne : lo ≠ hi) :
    cloudCallback cfg ((infiniteSamples cfg u v ++ [finitePoint x y (min lo hi)]).filter
        Point.isFinite)
      ≠ cloudCallback cfg (infiniteSamples cfg u v ++ [finitePoint x y (min lo hi)]) := by
  obtain ⟨hwith, hwithout⟩ := project_infiniteSamples hterrain hadaptive hlimits (min lo hi) hin
    hout
  have hmark := hvisible.2.2.2
  rw [filter_infiniteSamples]
  obtain ⟨hhideHi, hshowHi⟩ :=
    projectPoint_finitePoint (m := hi) hvisible hlimits.maxHeight (min_le_right lo hi)
  obtain ⟨hhideLo, hshowLo⟩ :=
    projectPoint_finitePoint (m := lo) hvisible hlimits.maxHeight (min_le_right lo hi)
  obtain hlt | hlt := lt_or_gt_of_ne hne
  · -- visible from `lo` on, hidden when the heights start at `hi`
    have hmin : min lo hi = lo := min_eq_left hlt.le
    obtain ⟨k, hk, hshow⟩ := hshowLo hmin.ge
    exact callback_ne_of_add hk hmark (hwithout.trans hshow) (hwith.trans (hhideHi (by rwa [hmin])))
  · -- hidden from `lo` on, visible when the heights start at `hi`
    have hmin : min lo hi = hi := min_eq_right hlt.le
    obtain ⟨k, hk, hshow⟩ := hshowHi hmin.ge
    exact (callback_ne_of_add hk hmark (hwith.trans hshow)
      (hwithout.trans (hhideLo (by rwa [hmin])))).symm

end Infinite

/-- The output is that of the finite points unless infinite heights reach the ground
estimate. If they can reach it, then some cloud shows them, provided the limits are
finite and some position is seen but not used for the estimate. -/
theorem nonfinite_ignored (cfg : Config (PyFloat ℝ)) :
    (∀ cloud : List (Point (PyFloat ℝ)),
      (cfg.terrainGroundFilter = true ∨ cfg.adaptiveGroundFilter = false ∨
        ∀ p ∈ cloud, ¬ InfiniteSample cfg p) →
      cloudCallback cfg (cloud.filter Point.isFinite) = cloudCallback cfg cloud) ∧
    (∀ lo hi margin pct x y : ℝ, cfg.minHeight = fin lo → cfg.maxHeight = fin hi →
      cfg.groundMargin = fin margin → cfg.groundPercentile = fin pct → pct ≤ 100 →
      VisibleAt cfg x y → ¬ InEstimationRange cfg x y →
      ((∀ cloud : List (Point (PyFloat ℝ)),
        cloudCallback cfg (cloud.filter Point.isFinite) = cloudCallback cfg cloud) ↔
      (cfg.terrainGroundFilter = true ∨ cfg.adaptiveGroundFilter = false ∨
        (∀ u v, ¬ InEstimationRange cfg u v) ∨ lo = hi))) := by
  refine ⟨fun cloud h => cloudCallback_filter h, ?_⟩
  intro lo hi margin pct x y hlo hhi hmargin hpct hle hvisible hout
  refine ⟨fun h => ?_, fun h cloud => ?_⟩
  · by_contra hcon
    simp only [not_or, not_forall, not_not, Bool.not_eq_true, Bool.not_eq_false] at hcon
    obtain ⟨hterrain, hadaptive, ⟨u, v, hin⟩, hne⟩ := hcon
    exact infiniteSamples_matter hterrain hadaptive ⟨hlo, hhi, hmargin, hpct, hle⟩ hin hout hvisible
      hne (h _)
  · obtain hterrain | hadaptive | hnone | heq := h
    · exact cloudCallback_filter (Or.inl hterrain)
    · exact cloudCallback_filter (Or.inr (Or.inl hadaptive))
    · refine cloudCallback_filter (Or.inr (Or.inr fun p _ hp => ?_))
      obtain ⟨u, v, -, -, -, hin⟩ := hp
      exact hnone u v hin
    · -- the clamp to `max_height` undoes every estimate
      subst heq
      apply cloudCallback_congr
      unfold project
      rw [projectTerrain, projectTerrain, obstacles_filter, projectHeights_filter]
      rw [effectiveMinHeight_of_eq hlo hhi, effectiveMinHeight_of_eq hlo hhi]

/-! ### A scan of two rays -/

theorem atan2_ahead {x : ℝ} (hx : 0 < x) (y : ℝ) :
    -2 < Planar.atan2 y x ∧ Planar.atan2 y x < 2 ∧ (Planar.atan2 y x < 0 ↔ y < 0) := by
  have hquarter : |Planar.atan2 y x| < Real.pi / 2 :=
    Complex.abs_arg_lt_pi_div_two_iff.mpr (Or.inl hx)
  have habs : |Planar.atan2 y x| < 2 := by linarith [Real.pi_le_four]
  obtain ⟨hlow, hhigh⟩ := abs_lt.mp habs
  exact ⟨hlow, hhigh, Complex.arg_neg_iff⟩

/-- Ahead of the sensor the two rays meet on the x axis. -/
theorem rayIndex_of_two_rays {cfg : Config (PyFloat ℝ)} (hmin : cfg.angleMin = fin (-2))
    (hmax : cfg.angleMax = fin 2) (hinc : cfg.angleIncrement = fin 2) {x : ℝ} (hx : 0 < x)
    (y : ℝ) (z : PyFloat ℝ) :
    rayIndex cfg ⟨fin x, fin y, z⟩ = some (if y < 0 then 0 else 1) := by
  obtain ⟨hlow, hhigh, hsign⟩ := atan2_ahead hx y
  have hangle : Point.angle ⟨fin x, fin y, z⟩ = fin (Planar.atan2 y x) := rfl
  rw [rayIndex_of_fin hmin hinc two_pos hmax hangle]
  by_cases hy : y < 0
  · have hneg := hsign.mpr hy
    rw [if_pos hy, Nat.cast_zero]
    refine ⟨⟨?_, ?_⟩, ?_, ?_⟩ <;> linarith
  · have hnonneg := not_lt.mp (mt hsign.mp hy)
    rw [if_neg hy, Nat.cast_one]
    refine ⟨⟨?_, ?_⟩, ?_, ?_⟩ <;> linarith

theorem sceneParameters_angles :
    sceneParameters.angleMin = fin (-2) ∧ sceneParameters.angleMax = fin 2 ∧
    sceneParameters.angleIncrement = fin 2 := by
  have htwo : (2.0 : PyFloat ℝ) = fin 2 := by
    rw [ofScientific_eq]
    norm_num
  have hmin : sceneParameters.angleMin = fin (-2) := by
    show fin (-2.0) = _
    norm_num
  exact ⟨hmin, htwo, htwo⟩

theorem sceneParameters_ranges :
    sceneParameters.rangeMin = fin 0 ∧ sceneParameters.rangeMax = fin 100 :=
  ⟨PyFloat.zero_literal, hundred_literal⟩

noncomputable def adaptiveParameters : Parameters (PyFloat ℝ) :=
  { sceneParameters with
    terrainGroundFilter := false
    adaptiveGroundFilter := true
    groundMinSamples := 1 }

/-- The scene of two rays in adaptive mode, with a single sample of the ground. -/
noncomputable def adaptiveConfig : Config (PyFloat ℝ) := Config.ofParameters adaptiveParameters

theorem finiteLimits_adaptiveConfig : FiniteLimits adaptiveConfig 0 1 0.08 45 where
  minHeight := PyFloat.zero_literal
  maxHeight := PyFloat.one_literal
  groundMargin := ofScientific_eq _ _ _
  groundPercentile := by
    have hpct : (45.0 : PyFloat ℝ) = fin 45 := by
      rw [ofScientific_eq]
      norm_num
    show atMost 100.0 (atLeast 0.0 (45.0 : PyFloat ℝ)) = fin 45
    rw [hpct, hundred_literal, PyFloat.zero_literal, atLeast, if_neg (by norm_num), atMost,
      if_neg (by norm_num)]
  percentile_le := by norm_num

theorem hypot_zero_right {x : ℝ} (hx : 0 ≤ x) : Planar.hypot x 0 = x := by
  rw [Planar.hypot, mul_zero, add_zero, Real.sqrt_mul_self hx]

theorem inEstimationRange_adaptiveConfig {x : ℝ} (hx : 0 ≤ x) :
    InEstimationRange adaptiveConfig x 0 ↔ 0.3 ≤ x ∧ x ≤ 2.5 := by
  have hmin : adaptiveConfig.groundEstimationMinRange = fin 0.3 := ofScientific_eq _ _ _
  have hmax : adaptiveConfig.groundEstimationMaxRange = fin 2.5 := ofScientific_eq _ _ _
  rw [InEstimationRange, hmin, hmax, hypot_zero_right hx, fin_lt_fin, fin_lt_fin, not_lt, not_lt]

theorem visibleAt_adaptiveConfig {x : ℝ} (hx : 0 < x) (hle : x ≤ 100) :
    VisibleAt adaptiveConfig x 0 := by
  obtain ⟨hmin, hmax, hinc⟩ := sceneParameters_angles
  have hrangeMin : adaptiveConfig.rangeMin = fin 0 := sceneParameters_ranges.1
  have hrangeMax : adaptiveConfig.rangeMax = fin 100 := sceneParameters_ranges.2
  refine ⟨?_, ?_, ⟨_, rayIndex_of_two_rays hmin hmax hinc hx 0 _⟩, Or.inl rfl⟩
  · rw [hrangeMin, hypot_zero_right hx.le, fin_lt_fin]
    exact not_lt.mpr hx.le
  · rw [hrangeMax, hypot_zero_right hx.le, fin_lt_fin]
    exact not_lt.mpr hle

/-- One infinite height at range 1 raises the heights to `max_height`, so that the
point at range 5 is lost. -/
theorem infinite_height_hides_point :
    cloudCallback adaptiveConfig
        ([⟨fin 1, fin 0, inf⟩, ⟨fin 5, fin 0, fin 0⟩].filter Point.isFinite)
      ≠ cloudCallback adaptiveConfig [⟨fin 1, fin 0, inf⟩, ⟨fin 5, fin 0, fin 0⟩] := by
  have hin : InEstimationRange adaptiveConfig 1 0 :=
    (inEstimationRange_adaptiveConfig (by norm_num)).mpr (by norm_num)
  have hout : ¬ InEstimationRange adaptiveConfig 5 0 :=
    mt (inEstimationRange_adaptiveConfig (by norm_num)).mp (by norm_num)
  have hmatter := infiniteSamples_matter rfl rfl finiteLimits_adaptiveConfig hin hout
    (visibleAt_adaptiveConfig (by norm_num) (by norm_num)) zero_ne_one
  rw [min_eq_left zero_le_one] at hmatter
  exact hmatter

theorem nonfinite_ignored_scene :
    cloudCallback sceneConfig [⟨fin 1, fin 0, fin 0⟩]
      = cloudCallback sceneConfig [⟨fin 1, fin 0, fin 0⟩, ⟨fin 1, fin 0, inf⟩] ∧
    (∃ cloud : List (Point (PyFloat ℝ)),
      cloudCallback adaptiveConfig (cloud.filter Point.isFinite)
        ≠ cloudCallback adaptiveConfig cloud) := by
  refine ⟨(nonfinite_ignored sceneConfig).1 [⟨fin 1, fin 0, fin 0⟩, ⟨fin 1, fin 0, inf⟩]
    (Or.inl rfl), ?_⟩
  obtain ⟨hlo, hhi, hmargin, hpct, hle⟩ := finiteLimits_adaptiveConfig
  have hout : ¬ InEstimationRange adaptiveConfig 5 0 :=
    mt (inEstimationRange_adaptiveConfig (by norm_num)).mp (by norm_num)
  have hiff := (nonfinite_ignored adaptiveConfig).2 0 1 0.08 45 5 0 hlo hhi hmargin hpct
    hle (visibleAt_adaptiveConfig (by norm_num) (by norm_num)) hout
  by_contra hnone
  obtain hterrain | hadaptive | hband | heq :=
    hiff.mp fun cloud => not_not.mp fun hne => hnone ⟨cloud, hne⟩
  · cases hterrain
  · cases hadaptive
  · exact hband 1 0 ((inEstimationRange_adaptiveConfig (by norm_num)).mpr (by norm_num))
  · exact zero_ne_one heq

end PointCloudToLaserScan
end RtkLocalization
