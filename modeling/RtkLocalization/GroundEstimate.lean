import RtkLocalization.ScanOrder

/-!
# The ground of a cell

A cell with enough elevations takes for its ground a quantile of them, which can be
capped at a lift above the lowest one, or simply the lowest one. On finite
elevations this is the statistic `groundStatistic` (`groundEstimate_eq`): it has no
order of its own, lies between the lowest and the highest elevation, grows with the
quantile and the lift, and moves with the elevations
(`ground_is_bounded_monotone_statistic`).
-/

namespace RtkLocalization
namespace PointCloudToLaserScan

open Selection PyFloat OrderStatistics

section Model
variable {α : Type} [Add α] [Mul α] [OfScientific α] [CppMath α] [LT α] [DecidableLT α]

/-- `quantile_id`, for `n` elevations. -/
def quantileId (cfg : Config α) (n : ℕ) : ℕ :=
  min (CppMath.roundSize (cfg.terrainQuantileZ * CppMath.ofNat (n - 1))) (n - 1)

/-- `ground_z` of a cell with enough elevations. -/
def groundEstimate (cfg : Config α) (elev : List α) : α :=
  if cfg.terrainUseSorting then
    let elev := sorted elev
    let ground := elev.getD (quantileId cfg elev.length) 0.0
    if cfg.terrainLimitGroundLift then
      let limit := elev.getD 0 0.0 + CppMath.toFloat cfg.terrainMaxGroundLift
      if limit < ground then limit else ground
    else ground
  else minElement elev

theorem groundZ_eq (cfg : Config α) (elev : List α) :
    groundZ cfg elev =
      if elev.length < cfg.terrainMinGroundPoints then CppMath.quietNaN
      else groundEstimate cfg elev := rfl

end Model

/-! ### The statistic -/

/-- What the ground of a cell is meant to be. -/
noncomputable def groundStatistic (sorting limited : Bool) (q lift : ℝ) (zs : List ℝ) : ℝ :=
  if sorting then if limited then cappedQuantile q lift zs else quantile q zs
  else nth zs 0

section Statistic
variable {sorting limited : Bool} {q r lift lift' : ℝ} {zs : List ℝ}

theorem groundStatistic_bounds (hq : q ≤ 1) (hlift : 0 ≤ lift) (hne : zs ≠ []) :
    nth zs 0 ≤ groundStatistic sorting limited q lift zs ∧
    groundStatistic sorting limited q lift zs ≤ nth zs (zs.length - 1) := by
  have hlow := nth_zero_le_quantile hq hne
  have hhigh := quantile_le_nth_last hq hne
  unfold groundStatistic
  split_ifs
  · exact ⟨nth_zero_le_cappedQuantile hq hlift hne, (min_le_left _ _).trans hhigh⟩
  · exact ⟨hlow, hhigh⟩
  · exact ⟨le_rfl, hlow.trans hhigh⟩

theorem groundStatistic_le_lift (hlift : 0 ≤ lift) :
    groundStatistic sorting true q lift zs ≤ nth zs 0 + lift := by
  cases sorting with
  | true => exact min_le_right _ _
  | false => exact le_add_of_nonneg_right hlift

theorem groundStatistic_of_perm {ws : List ℝ} (hperm : ws.Perm zs) :
    groundStatistic sorting limited q lift ws = groundStatistic sorting limited q lift zs := by
  unfold groundStatistic cappedQuantile
  rw [quantile_of_perm hperm, nth_of_perm hperm]

theorem groundStatistic_mono (hqr : q ≤ r) (hr : r ≤ 1) (hlift : lift ≤ lift') (hne : zs ≠ []) :
    groundStatistic sorting limited q lift zs ≤ groundStatistic sorting limited r lift' zs := by
  unfold groundStatistic
  split_ifs
  · exact cappedQuantile_mono hqr hr hlift hne
  · exact quantile_mono hqr hr hne
  · exact le_rfl

theorem groundStatistic_map_add (hq : q ≤ 1) (hne : zs ≠ []) (c : ℝ) :
    groundStatistic sorting limited q lift (zs.map (· + c))
      = groundStatistic sorting limited q lift zs + c := by
  unfold groundStatistic
  split_ifs
  · exact cappedQuantile_map_add hq hne c
  · exact quantile_map_add hq hne c
  · exact nth_map_add c (List.length_pos_of_ne_nil hne)

theorem groundStatistic_eq_least (hq : q ≤ 1) (hlift : 0 ≤ lift) (hne : zs ≠ [])
    (h : q = 0 ∨ limited = true ∧ lift = 0) :
    groundStatistic sorting limited q lift zs = nth zs 0 := by
  unfold groundStatistic
  split_ifs with hsorting hlimited
  · exact cappedQuantile_eq_nth_zero hq hlift hne (h.imp_right And.right)
  · obtain rfl | ⟨hon, -⟩ := h
    · exact quantile_zero zs
    · exact absurd hon hlimited
  · rfl

end Statistic

/-! ### The code computes it -/

theorem atLeast_fin (lo x : ℝ) : atLeast (fin lo) (fin x) = fin (max x lo) :=
  pyMax_fin x lo

theorem atMost_fin (hi x : ℝ) : atMost (fin hi) (fin x) = fin (min x hi) :=
  pyMin_fin x hi

theorem sorted_map_fin (zs : List ℝ) : sorted (zs.map fin) = (zs.mergeSort (· ≤ ·)).map fin := by
  refine (List.map_mergeSort ?_).symm
  intro a _ b _
  rw [← decide_not, decide_eq_decide, fin_lt_fin, not_lt]

theorem getD_sorted_map_fin (zs : List ℝ) (k : ℕ) :
    (sorted (zs.map fin)).getD k 0.0 = fin (nth zs k) := by
  rw [sorted_map_fin, PyFloat.zero_literal, List.getD_map]
  rfl

theorem length_sorted (zs : List (PyFloat ℝ)) : (sorted zs).length = zs.length :=
  List.length_mergeSort zs

theorem minElement_map_fin {zs : List ℝ} (hne : zs ≠ []) :
    minElement (zs.map fin) = fin (nth zs 0) := by
  obtain ⟨z, hz, hmin⟩ := List.mem_map.mp (minElement_mem (mt List.map_eq_nil_iff.mp hne))
  have hleast : ¬ fin (nth zs 0) < minElement (zs.map fin) := by
    cases zs with
    | nil => exact absurd rfl hne
    | cons y ys =>
      have hfold := isLeastOf_foldl (fin y) (ys.map fin)
      have hmem : nth (y :: ys) 0 ∈ y :: ys := nth_mem (Nat.succ_pos _)
      obtain heq | htail := List.mem_cons.mp hmem
      · rw [heq]
        exact hfold.init_not_lt
      · exact hfold.not_lt _ (List.mem_map_of_mem htail)
  rw [← hmin, fin_lt_fin, not_lt] at hleast
  rw [← hmin, le_antisymm hleast (nth_zero_le hz)]

section Estimate
variable {cfg : Config (PyFloat ℝ)} {q lift : ℝ} (hq : cfg.terrainQuantileZ = fin q) (hq1 : q ≤ 1)
include hq hq1

/-- The limit of the index to the list is never needed. -/
theorem quantileId_eq {n : ℕ} (hn : 0 < n) : quantileId cfg n = rank q n := by
  have hlt : rank q n < n := rank_lt hq1 hn
  rw [quantileId, hq, roundSize_mul]
  omega

theorem groundEstimate_eq (hlift : cfg.terrainMaxGroundLift = fin lift) {zs : List ℝ}
    (hne : zs ≠ []) :
    groundEstimate cfg (zs.map fin)
      = fin (groundStatistic cfg.terrainUseSorting cfg.terrainLimitGroundLift q lift zs) := by
  have hpos := List.length_pos_of_ne_nil hne
  have hcap : CppMath.toFloat cfg.terrainMaxGroundLift = fin lift := hlift
  unfold groundEstimate groundStatistic
  simp only [length_sorted, List.length_map, quantileId_eq hq hq1 hpos, getD_sorted_map_fin, hcap,
    fin_add_fin]
  cases cfg.terrainUseSorting with
  | false => exact minElement_map_fin hne
  | true =>
    cases cfg.terrainLimitGroundLift with
    | false => rfl
    | true => exact pyMin_fin (quantile q zs) (nth zs 0 + lift)

end Estimate

/-- For finite elevations, a quantile up to 1 and a lift from 0 on, the ground of a
cell is a bounded statistic of the elevations: the index is one of the list, the
order is irrelevant, a larger quantile or lift never lowers it, it moves with the
elevations, and at quantile 0 or limited to lift 0 it is the lowest one. -/
theorem ground_is_bounded_monotone_statistic (cfg : Config (PyFloat ℝ)) {q lift : ℝ}
    (hq : cfg.terrainQuantileZ = fin q) (hlift : cfg.terrainMaxGroundLift = fin lift)
    (hq1 : q ≤ 1) (hlift0 : 0 ≤ lift) (zs : List ℝ) (hne : zs ≠ []) :
    (cfg.terrainMinGroundPoints ≤ zs.length →
      groundZ cfg (zs.map fin) = groundEstimate cfg (zs.map fin)) ∧
    (CppMath.roundSize (cfg.terrainQuantileZ * CppMath.ofNat (zs.length - 1)) < zs.length ∧
      quantileId cfg zs.length < zs.length) ∧
    (∃ ground lowest highest : ℝ, groundEstimate cfg (zs.map fin) = fin ground ∧
      lowest ∈ zs ∧ highest ∈ zs ∧ (∀ z ∈ zs, lowest ≤ z ∧ z ≤ highest) ∧
      lowest ≤ ground ∧ ground ≤ highest ∧
      (cfg.terrainLimitGroundLift = true → ground ≤ lowest + lift)) ∧
    (∀ ws : List ℝ, ws.Perm zs →
      groundEstimate cfg (ws.map fin) = groundEstimate cfg (zs.map fin)) ∧
    (∀ q' lift' : ℝ, q ≤ q' → q' ≤ 1 → lift ≤ lift' →
      groundEstimate cfg (zs.map fin) ≤
        groundEstimate
          { cfg with terrainQuantileZ := fin q', terrainMaxGroundLift := fin lift' } (zs.map fin)) ∧
    (∀ c : ℝ, groundEstimate cfg ((zs.map (· + c)).map fin)
      = groundEstimate cfg (zs.map fin) + fin c) ∧
    (q = 0 ∨ cfg.terrainLimitGroundLift = true ∧ lift = 0 →
      groundEstimate cfg (zs.map fin)
        = groundEstimate { cfg with terrainUseSorting := false } (zs.map fin)) := by
  have hpos := List.length_pos_of_ne_nil hne
  have heq := groundEstimate_eq hq hq1 hlift hne
  obtain ⟨hlow, hhigh⟩ := @groundStatistic_bounds cfg.terrainUseSorting
    cfg.terrainLimitGroundLift q lift zs hq1 hlift0 hne
  refine ⟨?_, ⟨?_, ?_⟩, ?_, ?_, ?_, ?_, ?_⟩
  · intro hmany
    rw [groundZ_eq, List.length_map, if_neg (not_lt.mpr hmany)]
  · rw [hq, roundSize_mul]
    exact rank_lt hq1 hpos
  · rw [quantileId_eq hq hq1 hpos]
    exact rank_lt hq1 hpos
  · refine ⟨_, nth zs 0, nth zs (zs.length - 1), heq, nth_mem hpos, nth_mem (by omega), ?_, hlow,
      hhigh, ?_⟩
    · intro z hz
      exact ⟨nth_zero_le hz, le_nth_last hz⟩
    · intro hlimited
      rw [hlimited]
      exact groundStatistic_le_lift hlift0
  · intro ws hperm
    have hws : ws ≠ [] := by
      intro hnil
      rw [hnil] at hperm
      exact hne (List.nil_perm.mp hperm)
    rw [heq, groundEstimate_eq hq hq1 hlift hws, groundStatistic_of_perm hperm]
  · intro q' lift' hqq hq'1 hll
    rw [heq, groundEstimate_eq rfl hq'1 rfl hne, fin_le_fin]
    exact groundStatistic_mono hqq hq'1 hll hne
  · intro c
    have hmap : zs.map (· + c) ≠ [] := mt List.map_eq_nil_iff.mp hne
    rw [heq, groundEstimate_eq hq hq1 hlift hmap, groundStatistic_map_add hq1 hne, fin_add_fin]
  · intro hleast
    have hplain : groundEstimate { cfg with terrainUseSorting := false } (zs.map fin)
        = fin (nth zs 0) := minElement_map_fin hne
    rw [heq, hplain, groundStatistic_eq_least hq1 hlift0 hne hleast]

theorem ground_is_bounded_monotone_statistic_scene :
    groundEstimate sceneConfig ([0.3, 0.1, 0.2, 0.4, 0.5].map fin)
      ≤ groundEstimate { sceneConfig with terrainQuantileZ := fin 0.5,
                                          terrainMaxGroundLift := fin 1 }
        ([0.3, 0.1, 0.2, 0.4, 0.5].map fin) := by
  have hquantile : (0.25 : PyFloat ℝ) = fin 0.25 := ofScientific_eq _ _ _
  have hcap : (0.18 : PyFloat ℝ) = fin 0.18 := ofScientific_eq _ _ _
  have hq : sceneConfig.terrainQuantileZ = fin 0.25 := by
    show atMost 1.0 (atLeast 0.0 (0.25 : PyFloat ℝ)) = _
    rw [hquantile, PyFloat.zero_literal, PyFloat.one_literal, atLeast_fin, atMost_fin]
    norm_num
  have hlift : sceneConfig.terrainMaxGroundLift = fin 0.18 := by
    show atLeast 0.0 (0.18 : PyFloat ℝ) = _
    rw [hcap, PyFloat.zero_literal, atLeast_fin]
    norm_num
  obtain ⟨-, -, -, -, hmono, -⟩ := ground_is_bounded_monotone_statistic sceneConfig hq hlift
    (by norm_num) (by norm_num) [0.3, 0.1, 0.2, 0.4, 0.5] (List.cons_ne_nil _ _)
  exact hmono 0.5 1 (by norm_num) (by norm_num) (by norm_num)

end PointCloudToLaserScan
end RtkLocalization
