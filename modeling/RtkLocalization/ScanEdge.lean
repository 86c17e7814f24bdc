import RtkLocalization.ScanOrder

/-!
# The last ray

The window test keeps a direction equal to `angle_max`, and the number of rays is
rounded up. When the increment divides the window there is nothing to round, and
the ray that would start at `angle_max` does not exist: an obstacle exactly there
is skipped, although the last ray ends at its direction. Every other obstacle
inside the window shortens a ray (`no_obstacle_lost_iff`).
-/

namespace RtkLocalization
namespace PointCloudToLaserScan

open Scatter Selection PyFloat

/-- The obstacle of a confirmed cell that lies on `angle_max` is hidden by the
obstacle of a confirmed cell on the ray that ends there. -/
def EdgeCovered (cfg : Config (PyFloat ℝ)) (cloud : List (Point (PyFloat ℝ))) (b i : ℝ) : Prop :=
  ∀ c p, Confirmed cfg cloud c → FirstLeast Point.range p (obstaclePoints cfg cloud c) →
    p.range < noReturn cfg → p.angle = fin b →
    ∃ d u s, Confirmed cfg cloud d ∧ FirstLeast Point.range u (obstaclePoints cfg cloud d) ∧
      u.angle = fin s ∧ b - i ≤ s ∧ s < b ∧ u.range ≤ p.range

theorem exists_last_ray {a b i : ℝ} (hpos : 0 < i) (hab : a < b)
    (hdiv : ∃ n : ℤ, b - a = n * i) :
    ∃ k : ℕ, a + (k + 1) * i = b := by
  obtain ⟨n, hn⟩ := hdiv
  have hreal : (0 : ℝ) < n := by
    by_contra hneg
    have hprod : (n : ℝ) * i ≤ 0 := mul_nonpos_of_nonpos_of_nonneg (not_lt.mp hneg) hpos.le
    linarith
  have hn1 : 0 < n := by exact_mod_cast hreal
  refine ⟨(n - 1).toNat, ?_⟩
  have hcast : (((n - 1).toNat : ℕ) : ℝ) = (n : ℝ) - 1 := by
    have hint : (((n - 1).toNat : ℕ) : ℤ) = n - 1 := Int.toNat_of_nonneg (by omega)
    exact_mod_cast congrArg (fun z : ℤ => (z : ℝ)) hint
  rw [hcast]
  linarith

section Edge
variable {cfg : Config (PyFloat ℝ)} {cloud : List (Point (PyFloat ℝ))} {a b i t : ℝ}
  {p : Point (PyFloat ℝ)} (ha : cfg.angleMin = fin a) (hi : cfg.angleIncrement = fin i)
  (hpos : 0 < i) (hb : cfg.angleMax = fin b)

theorem ranges_getElem (hterrain : cfg.terrainGroundFilter = true) (k : ℕ) (s : PyFloat ℝ) :
    (cloudCallback cfg cloud).scan.ranges[k]? = some s ↔
      k < rayCount cfg ∧ (rangesOn cfg cloud k).foldl pyMin (noReturn cfg) = s := by
  have hproject : (cloudCallback cfg cloud).scan.ranges = (projectTerrain cfg cloud).ranges := by
    show (project cfg cloud).ranges = _
    rw [project, if_pos hterrain]
  rw [hproject, ranges_projectTerrain, List.getElem?_map, Option.map_eq_some_iff]
  refine ⟨fun h => ?_, fun h => ?_⟩
  · obtain ⟨j, hj, hs⟩ := h
    obtain ⟨hlt, rfl⟩ := List.getElem?_eq_some_iff.mp hj
    rw [List.length_range] at hlt
    rw [List.getElem_range] at hs
    exact ⟨hlt, hs⟩
  · exact ⟨k, List.getElem?_range h.1, h.2⟩

theorem ranges_le_iff (hterrain : cfg.terrainGroundFilter = true) {r : PyFloat ℝ}
    (hr : r < noReturn cfg) (k : ℕ) :
    (∃ s, (cloudCallback cfg cloud).scan.ranges[k]? = some s ∧ s ≤ r) ↔
      ∃ c u, Confirmed cfg cloud c ∧ FirstLeast Point.range u (obstaclePoints cfg cloud c) ∧
        rayIndex cfg u = some k ∧ u.range ≤ r := by
  have hnan : ∀ s ∈ rangesOn cfg cloud k, s ≠ nan := rangesOn_ne_nan
  have hmin := foldl_pyMin_le_iff hnan hr
  simp only [ranges_getElem hterrain]
  refine ⟨fun h => ?_, fun h => ?_⟩
  · obtain ⟨s, ⟨-, rfl⟩, hs⟩ := h
    obtain ⟨q, hq, hle⟩ := hmin.mp hs
    obtain ⟨c, u, hc, hu, hray, rfl⟩ := (mem_rangesOn_iff cfg cloud k q).mp hq
    exact ⟨c, u, hc, hu, hray, hle⟩
  · obtain ⟨c, u, hc, hu, hray, hle⟩ := h
    have hcount := ((rayIndex_eq_some_iff cfg u k).mp hray).2.2
    have hmem := (mem_rangesOn_iff cfg cloud k u.range).mpr ⟨c, u, hc, hu, hray, rfl⟩
    exact ⟨_, ⟨hcount, rfl⟩, hmin.mpr ⟨u.range, hmem, hle⟩⟩

include ha hi hpos hb

/-- The ray of a direction exists, except for the ray that would start at
`angle_max`. -/
theorem exists_ray_or_edge (ht : p.angle = fin t) (hle : a ≤ t) (hend : t ≤ b) :
    (∃ k, rayIndex cfg p = some k) ∨ t = b ∧ ∃ n : ℤ, b - a = n * i := by
  have hquot : 0 ≤ (t - a) / i := div_nonneg (sub_nonneg.mpr hle) hpos.le
  obtain ⟨k, hk⟩ := Int.eq_ofNat_of_zero_le (Int.floor_nonneg.mpr hquot)
  have hbin : a + k * i ≤ t ∧ t < a + (k + 1) * i := by
    rw [Int.floor_eq_iff, Int.cast_natCast, le_div_iff₀ hpos, div_lt_iff₀ hpos] at hk
    exact ⟨by linarith [hk.1], by linarith [hk.2]⟩
  obtain hlt | hge := lt_or_ge (a + k * i) b
  · exact Or.inl ⟨k, (rayIndex_of_fin ha hi hpos hb ht k).mpr ⟨hbin, hend, hlt⟩⟩
  · have hedge : t = b := le_antisymm hend (le_trans hge hbin.1)
    have hwindow : a + k * i = b := le_antisymm (le_trans hbin.1 hend) hge
    refine Or.inr ⟨hedge, k, ?_⟩
    rw [Int.cast_natCast, ← hwindow]
    ring

end Edge

/-- Inside a window every confirmed obstacle below the no-return value shortens a ray
at its direction to its range, unless the increment divides the window and the
obstacle, exactly on `angle_max`, is not hidden by one on the last ray. -/
theorem no_obstacle_lost_iff (cfg : Config (PyFloat ℝ)) (cloud : List (Point (PyFloat ℝ)))
    {a b i : ℝ} (hterrain : cfg.terrainGroundFilter = true) (ha : cfg.angleMin = fin a)
    (hb : cfg.angleMax = fin b) (hi : cfg.angleIncrement = fin i) (hab : a < b) (hpos : 0 < i) :
    (∀ c p t, Confirmed cfg cloud c → FirstLeast Point.range p (obstaclePoints cfg cloud c) →
      p.range < noReturn cfg → p.angle = fin t → a ≤ t → t ≤ b →
      ∃ (k : ℕ) (s : PyFloat ℝ), (cloudCallback cfg cloud).scan.ranges[k]? = some s ∧
        a + k * i ≤ t ∧ t ≤ a + (k + 1) * i ∧ s ≤ p.range) ↔
    ((∃ n : ℤ, b - a = n * i) → EdgeCovered cfg cloud b i) := by
  refine ⟨fun h hdiv c p hc hp hreturn hedge => ?_, fun h c p t hc hp hreturn ht hle hend => ?_⟩
  · obtain ⟨k, s, hs, hstart, hstop, hnear⟩ := h c p b hc hp hreturn hedge hab.le le_rfl
    obtain ⟨d, u, hd, hu, hray, hrange⟩ := (ranges_le_iff hterrain hreturn k).mp ⟨s, hs, hnear⟩
    have hfin : u.isFinite = true := (obstacleCell_some ((mem_naming _).mp hu.least.1).2).1
    obtain ⟨v, hv⟩ := exists_angle_of_isFinite hfin
    obtain ⟨⟨hlow, hhigh⟩, -, hexists⟩ := (rayIndex_of_fin ha hi hpos hb hv k).mp hray
    -- the ray that exists and reaches `angle_max` is the last one, and ends there
    obtain ⟨j, hj⟩ := exists_last_ray hpos hab hdiv
    have hkj : k = j := by
      have hlt : (k : ℝ) < j + 1 := by nlinarith
      have hge : (j : ℝ) + 1 ≤ k + 1 := by nlinarith
      have hlt' : k < j + 1 := by exact_mod_cast hlt
      have hge' : j + 1 ≤ k + 1 := by exact_mod_cast hge
      omega
    subst hkj
    exact ⟨d, u, v, hd, hu, hv, by linarith, by linarith, hrange⟩
  · obtain ⟨k, hray⟩ | ⟨rfl, hdiv⟩ := exists_ray_or_edge ha hi hpos hb ht hle hend
    · obtain ⟨⟨hlow, hhigh⟩, -⟩ := (rayIndex_of_fin ha hi hpos hb ht k).mp hray
      have hself : p.range ≤ p.range := by
        have hnan := range_ne_nan cfg cloud hp.least.1
        exact (le_iff_not_lt hnan hnan).mpr (irrefl _)
      obtain ⟨s, hs, hnear⟩ := (ranges_le_iff hterrain hreturn k).mpr ⟨c, p, hc, hp, hray, hself⟩
      exact ⟨k, s, hs, hlow, hhigh.le, hnear⟩
    · obtain ⟨d, u, v, hd, hu, hv, hlow, hhigh, hrange⟩ := h hdiv c p hc hp hreturn ht
      obtain ⟨k, hk⟩ := exists_last_ray hpos hab hdiv
      have hray : rayIndex cfg u = some k := by
        rw [rayIndex_of_fin ha hi hpos hb hv]
        exact ⟨⟨by linarith, by linarith⟩, hhigh.le, by linarith⟩
      obtain ⟨s, hs, hnear⟩ := (ranges_le_iff hterrain hreturn k).mpr ⟨d, u, hd, hu, hray, hrange⟩
      exact ⟨k, s, hs, by linarith, hk.ge, hnear⟩

theorem no_obstacle_lost_tie :
    ∃ (k : ℕ) (s : PyFloat ℝ), (cloudCallback tieConfig tieCloud).scan.ranges[k]? = some s ∧
      s ≤ fin (Planar.hypot 1 0.05) := by
  obtain ⟨hmin, hmax, hinc⟩ := sceneParameters_angles
  have hiff := no_obstacle_lost_iff tieConfig tieCloud rfl hmin hmax hinc (by norm_num) two_pos
  obtain ⟨p, hp⟩ := confirmed_tieCloud.exists_firstLeast
  obtain ⟨y, hy, hpoint, hrange⟩ := exists_of_mem_tieCloud ((mem_naming _).mp hp.least.1).1
  obtain ⟨hlow, hhigh, -⟩ := atan2_ahead one_pos y
  have hangle : p.angle = fin (Planar.atan2 y 1) := by rw [hpoint]; rfl
  -- every point of the cloud is ahead of the sensor, so none is on `angle_max`
  have hcovered : EdgeCovered tieConfig tieCloud 2 2 := by
    intro c q _ hq _ hedge
    obtain ⟨w, -, rfl, -⟩ := exists_of_mem_tieCloud ((mem_naming _).mp hq.least.1).1
    have hside : Point.angle (finitePoint 1 w 0) = fin (Planar.atan2 w 1) := rfl
    rw [hside, PyFloat.fin.injEq] at hedge
    linarith [(atan2_ahead one_pos w).2.1]
  have hnear : p.range < noReturn tieConfig := by
    rw [hrange]
    exact fin_lt_inf _
  obtain ⟨k, s, hs, -, -, hle⟩ := hiff.mpr (fun _ => hcovered) 1555 p _ confirmed_tieCloud hp hnear
    hangle hlow.le hhigh.le
  rw [hrange] at hle
  exact ⟨k, s, hs, hle⟩

/-! ### An obstacle straight behind the sensor -/

noncomputable def edgeParameters : Parameters (PyFloat ℝ) :=
  { tieParameters with
    angleMin := .fin (-Real.pi)
    angleMax := .fin Real.pi
    angleIncrement := .fin (Real.pi / 180.0) }

/-- The full turn in steps of one degree, the default of the node. -/
noncomputable def edgeConfig : Config (PyFloat ℝ) := Config.ofParameters edgeParameters

def edgeCloud : List (Point (PyFloat ℝ)) := [finitePoint (-1) 0 0]

theorem obstaclePoints_edgeConfig (cloud : List (Point (PyFloat ℝ))) (c : ℕ) :
    obstaclePoints edgeConfig cloud c = obstaclePoints tieConfig cloud c := rfl

theorem toCellIndex_behind : toCellIndex tieConfig (finitePoint (-1) 0 0) = some 1045 := by
  have hrow : ⌊((-1 : ℝ) + 0.1) / 0.2⌋ = -5 := by
    rw [Int.floor_eq_iff]
    norm_num
  have hcol : ⌊((0 : ℝ) + 0.1) / 0.2⌋ = 0 := by
    rw [Int.floor_eq_iff]
    norm_num
  exact toCellIndex_of_floor hrow hcol (by omega) (by omega)

theorem obstaclePoints_edgeCloud : obstaclePoints edgeConfig edgeCloud 1045 = edgeCloud := by
  rw [obstaclePoints_edgeConfig]
  refine obstaclePoints_tieConfig (by decide) ?_ (List.cons_ne_nil _ _)
  intro p hp
  have hnear : Planar.hypot (-1) 0 ≤ 5 := by
    have hsq := Planar.hypot_sq (-1) 0
    have hnonneg := Planar.hypot_nonneg (-1) 0
    nlinarith
  exact ⟨-1, 0, List.mem_singleton.mp hp, toCellIndex_behind, hnear⟩

theorem angle_behind : Point.angle (finitePoint (-1) 0 0) = fin Real.pi := by
  have hback : Planar.atan2 0 (-1) = Real.pi :=
    Complex.arg_eq_pi_iff.mpr ⟨neg_one_lt_zero, rfl⟩
  rw [← hback]
  rfl

theorem rayIndex_behind : rayIndex edgeConfig (finitePoint (-1) 0 0) = none := by
  apply Option.eq_none_iff_forall_ne_some.mpr
  intro k hk
  have hstep : 0 < Real.pi / 180.0 := div_pos Real.pi_pos (by norm_num)
  obtain ⟨⟨-, hend⟩, -, hexists⟩ := (rayIndex_of_fin rfl rfl hstep rfl angle_behind k).mp hk
  have hturn : 360 * (Real.pi / 180.0) = Real.pi + Real.pi := by
    norm_num
    ring
  have hlow : (360 : ℝ) < k + 1 := by nlinarith
  have hhigh : (k : ℝ) < 360 := by nlinarith
  have hlow' : 360 < k + 1 := by exact_mod_cast hlow
  have hhigh' : k < 360 := by exact_mod_cast hhigh
  omega

/-- The only obstacle of the cloud is a metre straight behind the sensor, and no ray
at its direction sees it. -/
theorem obstacle_behind_lost :
    edgeConfig.terrainGroundFilter = true ∧ edgeConfig.angleMin = fin (-Real.pi) ∧
    edgeConfig.angleMax = fin Real.pi ∧ edgeConfig.angleIncrement = fin (Real.pi / 180.0) ∧
    Confirmed edgeConfig edgeCloud 1045 ∧
    FirstLeast Point.range (finitePoint (-1) 0 0) (obstaclePoints edgeConfig edgeCloud 1045) ∧
    (finitePoint (-1) 0 0).range < noReturn edgeConfig ∧
    (finitePoint (-1) 0 0).angle = fin Real.pi ∧
    ¬ ∃ (k : ℕ) (s : PyFloat ℝ), (cloudCallback edgeConfig edgeCloud).scan.ranges[k]? = some s ∧
      -Real.pi + k * (Real.pi / 180.0) ≤ Real.pi ∧
      Real.pi ≤ -Real.pi + (k + 1) * (Real.pi / 180.0) ∧ s ≤ (finitePoint (-1) 0 0).range := by
  have hnear : (finitePoint (-1) 0 0).range < noReturn edgeConfig := fin_lt_inf _
  refine ⟨rfl, rfl, rfl, rfl, ⟨by decide, ?_⟩, ?_, hnear, angle_behind, ?_⟩
  · rw [obstaclePoints_edgeCloud]
    decide
  · rw [obstaclePoints_edgeCloud]
    exact ⟨[], [], rfl, nofun, nofun⟩
  · intro h
    obtain ⟨k, s, hs, -, -, hle⟩ := h
    obtain ⟨c, u, -, hu, hray, -⟩ := (ranges_le_iff rfl hnear k).mp ⟨s, hs, hle⟩
    have hmem : u ∈ edgeCloud := ((mem_naming _).mp hu.least.1).1
    rw [List.mem_singleton.mp hmem, rayIndex_behind] at hray
    cases hray

end PointCloudToLaserScan
end RtkLocalization
