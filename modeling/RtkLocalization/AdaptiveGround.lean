import RtkLocalization.GroundEstimate

/-!
# What the adaptive ground filter removes

Adaptive mode differs from plain mode by the lower end of the heights alone. On a
cloud of finite points this end is a quantile of the sampled heights with a margin,
limited to the two heights of plain mode (`effectiveMinHeight_eq`). It is never below
`min_height` and grows with the percentile and the margin, and a ray only gets longer
when it goes up (`adaptive_ground_only_removes`).
-/

namespace RtkLocalization
namespace PointCloudToLaserScan

open Scatter Selection PyFloat OrderStatistics

/-! ### The lower end of the heights -/

/-- Where the heights start for the sampled heights `zs`. -/
noncomputable def lowerEnd (adaptive : Bool) (minSamples : ℤ) (lo hi margin q : ℝ) (zs : List ℝ) :
    ℝ :=
  if adaptive = true ∧ minSamples ≤ zs.length then min (max lo (quantile q zs + margin)) hi else lo

section LowerEnd
variable {adaptive : Bool} {minSamples : ℤ} {lo hi margin margin' q r : ℝ} {zs : List ℝ}

theorem lo_le_lowerEnd (hle : lo ≤ hi) : lo ≤ lowerEnd adaptive minSamples lo hi margin q zs := by
  unfold lowerEnd
  split_ifs
  · exact le_min (le_max_left _ _) hle
  · exact le_rfl

theorem lowerEnd_mono (hqr : q ≤ r) (hr : r ≤ 1) (hmargin : margin ≤ margin')
    (hsamples : 1 ≤ minSamples) :
    lowerEnd adaptive minSamples lo hi margin q zs
      ≤ lowerEnd adaptive minSamples lo hi margin' r zs := by
  unfold lowerEnd
  split_ifs with hmany
  · have hne : zs ≠ [] := by
      intro hnil
      rw [hnil, List.length_nil, Nat.cast_zero] at hmany
      omega
    have hquantile := quantile_mono hqr hr hne
    have hground : quantile q zs + margin ≤ quantile r zs + margin' := by linarith
    exact min_le_min (max_le_max le_rfl hground) le_rfl
  · exact le_rfl

end LowerEnd

section Threshold
variable {cfg : Config (PyFloat ℝ)} {cloud : List (Point (PyFloat ℝ))}

theorem exists_samples (hcloud : ∀ p ∈ cloud, p.isFinite = true) :
    ∃ zs : List ℝ, cloud.filterMap (groundCandidate cfg) = zs.map fin := by
  apply exists_map_fin
  intro z hz
  obtain ⟨p, hp, hsample⟩ := List.mem_filterMap.mp hz
  obtain ⟨x, y, w, rfl⟩ := Point.exists_fin_of_isFinite (hcloud p hp)
  rw [← ((groundCandidate_eq_some_iff cfg _ z).mp hsample).1]
  rfl

theorem effectiveMinHeight_eq {lo hi margin pct : ℝ} {zs : List ℝ}
    (hlo : cfg.minHeight = fin lo) (hhi : cfg.maxHeight = fin hi)
    (hmargin : cfg.groundMargin = fin margin) (hpct : cfg.groundPercentile = fin pct)
    (hzs : cloud.filterMap (groundCandidate cfg) = zs.map fin) :
    effectiveMinHeight cfg cloud = fin
      (lowerEnd cfg.adaptiveGroundFilter cfg.groundMinSamples lo hi margin (pct / 100) zs) := by
  unfold effectiveMinHeight lowerEnd
  simp only [hzs, hlo, hhi, hmargin, hpct, List.length_map, percentile_eq, getD_sorted_map_fin,
    fin_add_fin]
  cases cfg.adaptiveGroundFilter with
  | false => rfl
  | true =>
    by_cases hmany : cfg.groundMinSamples ≤ zs.length
    · have hon : true = true ∧ cfg.groundMinSamples ≤ zs.length := ⟨rfl, hmany⟩
      rw [if_neg (by simp), if_neg (not_lt.mpr hmany), if_pos hon]
      have hmax := pyMax_fin lo (quantile (pct / 100) zs + margin)
      have hmin := pyMin_fin (max lo (quantile (pct / 100) zs + margin)) hi
      rw [← hmax] at hmin
      exact hmin
    · rw [if_neg (by simp), if_pos (not_le.mp hmany), if_neg fun h => hmany h.2]

end Threshold

/-! ### Rays -/

section Rays
variable {cfg : Config (PyFloat ℝ)} {cloud : List (Point (PyFloat ℝ))}

/-- The ranges of the points from height `m` on. -/
noncomputable def rangesAbove (cfg : Config (PyFloat ℝ)) (m : PyFloat ℝ)
    (cloud : List (Point (PyFloat ℝ))) : List (PyFloat ℝ) :=
  (projectAll cfg (pointRay cfg m) Point.range id cloud).ranges

theorem pointRay_of_le {m m' : ℝ} (hle : m ≤ m') {p : Point (PyFloat ℝ)} {k : ℕ}
    (h : pointRay cfg (fin m') p = some k) : pointRay cfg (fin m) p = some k := by
  obtain ⟨x, y, w, rfl⟩ := Point.exists_fin_of_isFinite (isFinite_of_pointRay h)
  unfold pointRay at h ⊢
  split_ifs at h with hskip hrange
  simp only [not_or, not_not] at hskip
  have hheight : ¬ fin w < fin m := by
    rw [fin_lt_fin, not_lt]
    exact hle.trans (not_lt.mp (mt (fin_lt_fin w m').mpr hskip.2.2))
  rw [if_neg (by simp [hskip.1, hskip.2.1, hheight]), if_neg hrange]
  exact h

/-- Fewer points pass a higher lower end, so no ray gets shorter. -/
theorem rangesAbove_mono (hreturn : noReturn cfg ≠ nan) {m m' : ℝ} (hle : m ≤ m') :
    List.Forall₂ (· ≤ ·) (rangesAbove cfg (fin m) cloud) (rangesAbove cfg (fin m') cloud) := by
  rw [rangesAbove, rangesAbove, ranges_projectAll, ranges_projectAll, List.forall₂_map_left_iff,
    List.forall₂_map_right_iff, List.forall₂_same]
  intro k _
  have hsub : naming (pointRay cfg (fin m')) cloud k ⊆ naming (pointRay cfg (fin m)) cloud k := by
    intro p hp
    obtain ⟨hmem, hray⟩ := (mem_naming _).mp hp
    exact (mem_naming _).mpr ⟨hmem, pointRay_of_le hle hray⟩
  have hmin := foldl_pyMin_le_of_subset hreturn (fun r => range_ne_nan_of_pointRay)
    (List.map_subset Point.range hsub)
  rw [List.foldl_map, List.foldl_map] at hmin
  exact hmin

theorem ranges_of_heights (hterrain : cfg.terrainGroundFilter = false) :
    (cloudCallback cfg cloud).scan.ranges
      = rangesAbove cfg (effectiveMinHeight cfg cloud) cloud := by
  show (project cfg cloud).ranges = _
  rw [project, if_neg (by simp [hterrain]), projectHeights_eq]
  rfl

end Rays

/-! ### Scans under different parameters -/

/-- Parameters that are numbers, of those that the heights and the no-return value
depend on. -/
structure RealHeights (p : Parameters (PyFloat ℝ)) (lo hi margin pct : ℝ) : Prop where
  minHeight : p.minHeight = fin lo
  maxHeight : p.maxHeight = fin hi
  groundMargin : p.groundMargin = fin margin
  groundPercentile : p.groundPercentile = fin pct
  rangeMax : isfinite p.rangeMax = true
  infEpsilon : isfinite p.infEpsilon = true

section Scans
variable {p p' : Parameters (PyFloat ℝ)} {lo hi margin margin' pct pct' : ℝ}
  {cloud : List (Point (PyFloat ℝ))}

theorem RealHeights.noReturn_ne_nan (h : RealHeights p lo hi margin pct) :
    noReturn (Config.ofParameters p) ≠ nan := by
  obtain ⟨far, hfar⟩ := exists_fin_of_isfinite h.rangeMax
  obtain ⟨eps, heps⟩ := exists_fin_of_isfinite h.infEpsilon
  have hsum : p.rangeMax + p.infEpsilon = fin (far + eps) := by rw [hfar, heps, fin_add_fin]
  show (if p.useInf then inf else p.rangeMax + p.infEpsilon) ≠ nan
  rw [hsum]
  split_ifs <;> exact nofun

theorem RealHeights.percentile (h : RealHeights p lo hi margin pct) :
    (Config.ofParameters p).groundPercentile = fin (min (max pct 0) 100) := by
  show atMost 100.0 (atLeast 0.0 p.groundPercentile) = _
  rw [h.groundPercentile, PyFloat.zero_literal, hundred_literal, atLeast_fin, atMost_fin]

theorem ranges_eq (h : RealHeights p lo hi margin pct) (hterrain : p.terrainGroundFilter = false)
    {zs : List ℝ} (hzs : cloud.filterMap (groundCandidate (Config.ofParameters p)) = zs.map fin) :
    (cloudCallback (Config.ofParameters p) cloud).scan.ranges
      = rangesAbove (Config.ofParameters p) (fin (lowerEnd p.adaptiveGroundFilter
          (Config.ofParameters p).groundMinSamples lo hi margin (min (max pct 0) 100 / 100) zs))
          cloud := by
  have hcfg : (Config.ofParameters p).terrainGroundFilter = false := hterrain
  rw [ranges_of_heights hcfg,
    effectiveMinHeight_eq h.minHeight h.maxHeight h.groundMargin h.percentile hzs]
  rfl

/-- Two parameter sets that sample and project alike are compared by where their
heights start. -/
theorem ranges_le_of_lowerEnd (h : RealHeights p lo hi margin pct)
    (h' : RealHeights p' lo hi margin' pct') (hterrain : p.terrainGroundFilter = false)
    (hterrain' : p'.terrainGroundFilter = false) (hcloud : ∀ q ∈ cloud, q.isFinite = true)
    (hsample : groundCandidate (Config.ofParameters p') = groundCandidate (Config.ofParameters p))
    (habove : rangesAbove (Config.ofParameters p') = rangesAbove (Config.ofParameters p))
    (hle : ∀ zs : List ℝ,
      lowerEnd p.adaptiveGroundFilter (Config.ofParameters p).groundMinSamples lo hi margin
          (min (max pct 0) 100 / 100) zs
        ≤ lowerEnd p'.adaptiveGroundFilter (Config.ofParameters p').groundMinSamples lo hi margin'
          (min (max pct' 0) 100 / 100) zs) :
    List.Forall₂ (· ≤ ·) (cloudCallback (Config.ofParameters p) cloud).scan.ranges
      (cloudCallback (Config.ofParameters p') cloud).scan.ranges := by
  obtain ⟨zs, hzs⟩ := exists_samples hcloud
  rw [ranges_eq h hterrain hzs, ranges_eq h' hterrain' (hsample ▸ hzs), habove]
  exact rangesAbove_mono h.noReturn_ne_nan (hle zs)

end Scans

/-- On a cloud of finite points, with the heights in order and terrain mode off, no ray
is shorter with the adaptive filter than without, and none gets shorter when the
percentile or the margin is raised. The rank of the percentile is an index of the
samples. -/
theorem adaptive_ground_only_removes (p : Parameters (PyFloat ℝ))
    (cloud : List (Point (PyFloat ℝ))) {lo hi margin pct : ℝ} (h : RealHeights p lo hi margin pct)
    (hle : lo ≤ hi) (hterrain : p.terrainGroundFilter = false)
    (hcloud : ∀ q ∈ cloud, q.isFinite = true) :
    List.Forall₂ (· ≤ ·)
      (cloudCallback (Config.ofParameters { p with adaptiveGroundFilter := false })
        cloud).scan.ranges
      (cloudCallback (Config.ofParameters { p with adaptiveGroundFilter := true })
        cloud).scan.ranges ∧
    (∀ pct' : ℝ, pct ≤ pct' → List.Forall₂ (· ≤ ·)
      (cloudCallback (Config.ofParameters p) cloud).scan.ranges
      (cloudCallback (Config.ofParameters { p with groundPercentile := fin pct' })
        cloud).scan.ranges) ∧
    (∀ margin' : ℝ, margin ≤ margin' → List.Forall₂ (· ≤ ·)
      (cloudCallback (Config.ofParameters p) cloud).scan.ranges
      (cloudCallback (Config.ofParameters { p with groundMargin := fin margin' })
        cloud).scan.ranges) ∧
    ∀ samples : List (PyFloat ℝ),
      cloud.filterMap (groundCandidate (Config.ofParameters p)) = samples →
      (Config.ofParameters p).groundMinSamples ≤ samples.length →
      CppMath.roundSize ((Config.ofParameters p).groundPercentile / 100.0
        * CppMath.ofNat (samples.length - 1)) < samples.length := by
  have hsamples := (Config.ofParameters p).groundMinSamples_pos
  have hshare : ∀ x : ℝ, min (max x 0) 100 / 100 ≤ 1 := by
    intro x
    have hcap := min_le_right (max x 0) 100
    linarith
  obtain ⟨hlo, hhi, hmargin, hpct, hmax, heps⟩ := h
  refine ⟨?_, ?_, ?_, ?_⟩
  · refine ranges_le_of_lowerEnd ⟨hlo, hhi, hmargin, hpct, hmax, heps⟩
      ⟨hlo, hhi, hmargin, hpct, hmax, heps⟩ hterrain hterrain hcloud rfl rfl ?_
    intro zs
    exact lo_le_lowerEnd hle
  · intro pct' hpct'
    refine ranges_le_of_lowerEnd ⟨hlo, hhi, hmargin, hpct, hmax, heps⟩
      ⟨hlo, hhi, hmargin, rfl, hmax, heps⟩ hterrain hterrain hcloud rfl rfl ?_
    intro zs
    have hclamp : min (max pct 0) 100 ≤ min (max pct' 0) 100 :=
      min_le_min (max_le_max hpct' le_rfl) le_rfl
    exact lowerEnd_mono (by linarith) (hshare pct') le_rfl hsamples
  · intro margin' hmargin'
    refine ranges_le_of_lowerEnd ⟨hlo, hhi, hmargin, hpct, hmax, heps⟩
      ⟨hlo, hhi, rfl, hpct, hmax, heps⟩ hterrain hterrain hcloud rfl rfl ?_
    intro zs
    exact lowerEnd_mono le_rfl (hshare pct) hmargin' hsamples
  · intro samples _ hmany
    have hreal : RealHeights p lo hi margin pct := ⟨hlo, hhi, hmargin, hpct, hmax, heps⟩
    rw [hreal.percentile]
    exact percentile_lt (by omega) (min_le_right _ _)

theorem realHeights_adaptiveParameters : RealHeights adaptiveParameters 0 1 0.08 45.0 where
  minHeight := PyFloat.zero_literal
  maxHeight := PyFloat.one_literal
  groundMargin := ofScientific_eq _ _ _
  groundPercentile := ofScientific_eq _ _ _
  rangeMax := by
    rw [adaptiveParameters, sceneParameters_ranges.2, isfinite_fin]
  infEpsilon := by
    have heps : adaptiveParameters.infEpsilon = fin 1 := PyFloat.one_literal
    rw [heps, isfinite_fin]

theorem adaptive_ground_only_removes_scene :
    List.Forall₂ (· ≤ ·)
      (cloudCallback (Config.ofParameters { adaptiveParameters with adaptiveGroundFilter := false })
        [finitePoint 1 0 0, finitePoint 5 0 0.5]).scan.ranges
      (cloudCallback (Config.ofParameters { adaptiveParameters with adaptiveGroundFilter := true })
        [finitePoint 1 0 0, finitePoint 5 0 0.5]).scan.ranges := by
  have hcloud : ∀ q ∈ [finitePoint 1 0 0, finitePoint 5 0 0.5], q.isFinite = true := by
    intro q hq
    rw [List.mem_cons, List.mem_singleton] at hq
    obtain rfl | rfl := hq <;> rfl
  exact (adaptive_ground_only_removes adaptiveParameters _ realHeights_adaptiveParameters
    zero_le_one rfl hcloud).1

end PointCloudToLaserScan
end RtkLocalization
