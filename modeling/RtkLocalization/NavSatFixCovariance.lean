import RtkLocalization.Lib.Sym3
import RtkLocalization.NavSatFixSanitizer

/-!
# The covariance published by `navsat_fix_sanitizer.py`

Two exact conditions on the repair, over floats with NaN and infinities. A
measured axis keeps its variance unless another axis triggers the replacement of
the whole matrix by a smaller default; the published matrix is a valid
covariance unless correlations that are not finite, or too large for the clamped
variances, are passed on.
-/

namespace RtkLocalization
namespace NavSatFixSanitizer

/-! ### Clamping -/

section Clamp
open PyFloat
variable {K : Type} [Field K] [LinearOrder K]

/-- `0 < minimum_variance <= maximum_variance`; both may be infinite. -/
structure Config.Limits (cfg : Config (PyFloat K)) : Prop where
  pos : 0.0 < cfg.minimumVariance
  le : cfg.minimumVariance ≤ cfg.maximumVariance

theorem Config.Limits.minimum_ne_nan {cfg : Config (PyFloat K)} (hl : cfg.Limits) :
    ¬ cfg.minimumVariance = nan := by
  intro h
  have hpos := hl.pos
  rw [h] at hpos
  exact not_lt_nan _ hpos

def Measured (v : PyFloat K) : Prop := isfinite v = true ∧ 0.0 < v

variable [IsStrictOrderedRing K]

theorem measured_iff (v : PyFloat K) : Measured v ↔ ∃ x : K, v = fin x ∧ 0 < x := by
  cases v <;> simp [Measured]

theorem unusable_eq_false_iff (v : PyFloat K) : unusable v = false ↔ Measured v := by
  cases v <;> simp [unusable, Measured]

theorem Config.Limits.cases {cfg : Config (PyFloat K)} (hl : cfg.Limits) :
    (∃ lo : K, 0 < lo ∧ cfg.minimumVariance = fin lo ∧
      (cfg.maximumVariance = inf ∨ ∃ hi, lo ≤ hi ∧ cfg.maximumVariance = fin hi)) ∨
    (cfg.minimumVariance = inf ∧ cfg.maximumVariance = inf) := by
  obtain ⟨hpos, hle⟩ := hl
  cases hlo : cfg.minimumVariance <;> cases hhi : cfg.maximumVariance <;>
    simp_all

theorem Config.clamp_fin {cfg : Config (PyFloat K)} (hl : cfg.Limits)
    (hfin : isfinite cfg.minimumVariance = true) (x : K) :
    ∃ y, cfg.clamp (fin x) = fin y ∧ 0 < y := by
  obtain ⟨lo, hpos, hlo, hhi | ⟨hi, hle, hhi⟩⟩ | ⟨hlo, -⟩ := hl.cases
  · refine ⟨max x lo, ?_, lt_max_of_lt_right hpos⟩
    rw [Config.clamp, hlo, hhi, pyMax_fin]
    rfl
  · refine ⟨min (max x lo) hi, ?_, lt_min (lt_max_of_lt_right hpos) (hpos.trans_le hle)⟩
    rw [Config.clamp, hlo, hhi, pyMax_fin, pyMin_fin]
  · rw [hlo] at hfin
    cases hfin

theorem Config.isfinite_clamp {cfg : Config (PyFloat K)} (hl : cfg.Limits) (x : K) :
    isfinite (cfg.clamp (fin x)) = true ↔ isfinite cfg.minimumVariance = true := by
  constructor
  · intro h
    obtain ⟨lo, -, hlo, -⟩ | ⟨hlo, hhi⟩ := hl.cases
    · rw [hlo, isfinite_fin]
    · simp [Config.clamp, hlo, hhi, pyMax, pyMin] at h
  · intro h
    obtain ⟨y, hy, -⟩ := Config.clamp_fin hl h x
    rw [hy, isfinite_fin]

theorem Config.clamp_mem {cfg : Config (PyFloat K)} (hl : cfg.Limits) (x : K) :
    cfg.minimumVariance ≤ cfg.clamp (fin x) ∧ cfg.clamp (fin x) ≤ cfg.maximumVariance := by
  obtain ⟨lo, hpos, hlo, hhi | ⟨hi, hle, hhi⟩⟩ | ⟨hlo, hhi⟩ := hl.cases
  · have h : cfg.clamp (fin x) = fin (max x lo) := by
      rw [Config.clamp, hlo, hhi, pyMax_fin]
      rfl
    rw [h, hlo, hhi]
    exact ⟨(fin_le_fin _ _).mpr (le_max_right _ _), fin_le_inf _⟩
  · rw [Config.clamp, hlo, hhi, pyMax_fin, pyMin_fin, fin_le_fin, fin_le_fin]
    exact ⟨le_min (le_max_right _ _) hle, min_le_right _ _⟩
  · have h : cfg.clamp (fin x) = inf := by
      simp [Config.clamp, hlo, hhi, pyMax, pyMin]
    rw [h, hlo, hhi]
    exact ⟨inf_le_inf, inf_le_inf⟩

theorem Config.Limits.maximum_cases {cfg : Config (PyFloat K)} (hl : cfg.Limits) :
    cfg.maximumVariance = inf ∨ ∃ hi, cfg.maximumVariance = fin hi := by
  obtain ⟨lo, -, -, hhi | ⟨hi, -, hhi⟩⟩ | ⟨-, hhi⟩ := hl.cases
  · exact Or.inl hhi
  · exact Or.inr ⟨hi, hhi⟩
  · exact Or.inl hhi

theorem Config.pyMin_le_clamp {cfg : Config (PyFloat K)} (hl : cfg.Limits) (x : K) :
    pyMin (fin x) cfg.maximumVariance ≤ cfg.clamp (fin x) :=
  (pyMin_le_pyMin_iff x _ _ hl.maximum_cases).mpr (Or.inl (fin_le_pyMax x hl.minimum_ne_nan))

end Clamp

/-! ### One axis of a repaired covariance -/

section Axes
open PyFloat
variable {K : Type} [Field K] [LinearOrder K] [IsStrictOrderedRing K]

theorem needsRepair_eq_false_iff (msg : NavSatFix (PyFloat K)) :
    needsRepair msg = false ↔ msg.positionCovarianceType ≠ .unknown ∧
      ∀ axis, Measured (variance msg.positionCovariance axis) := by
  simp only [needsRepair, Bool.or_eq_false_iff, decide_eq_false_iff_not, unusable_eq_false_iff]
  constructor
  · rintro ⟨⟨⟨htype, heast⟩, hnorth⟩, hup⟩
    refine ⟨htype, fun axis => ?_⟩
    cases axis with
    | east => exact heast
    | north => exact hnorth
    | up => exact hup
  · rintro ⟨htype, h⟩
    exact ⟨⟨⟨htype, h .east⟩, h .north⟩, h .up⟩

/-- A measured axis keeps its variance, up to the maximum, exactly when the two
other axes are measured too or the default that replaces it is no smaller. -/
theorem callback_keeps_variance_iff (cfg : Config (PyFloat K)) (hl : cfg.Limits) (st : State)
    (msg : NavSatFix (PyFloat K)) (now : ℤ) (axis : Axis) (hvalid : validFix cfg msg = true)
    (htype : msg.positionCovarianceType ≠ .unknown)
    (haxis : Measured (variance msg.positionCovariance axis)) :
    ∃ out, (callback cfg st (msg, now)).2 = some out ∧
      (pyMin (variance msg.positionCovariance axis) cfg.maximumVariance
          ≤ variance out.positionCovariance axis ↔
        (∀ a, Measured (variance msg.positionCovariance a)) ∨
        variance msg.positionCovariance axis
          ≤ pyMax (cfg.defaultVariance axis) cfg.minimumVariance ∨
        cfg.maximumVariance ≤ pyMax (cfg.defaultVariance axis) cfg.minimumVariance) := by
  obtain ⟨out, hout, hcov⟩ := callback_accepted cfg st msg now hvalid
  obtain ⟨v, hv, -⟩ := (measured_iff _).mp haxis
  refine ⟨out, hout, ?_⟩
  rw [hcov]
  cases hneeds : needsRepair msg with
  | false =>
    have hall := ((needsRepair_eq_false_iff msg).mp hneeds).2
    have hle := Config.pyMin_le_clamp hl v
    rw [if_neg Bool.false_ne_true, variance_clampDiagonal, hv]
    exact iff_of_true hle (Or.inl hall)
  | true =>
    have hnot : ¬ ∀ a, Measured (variance msg.positionCovariance a) := by
      intro hall
      rw [(needsRepair_eq_false_iff msg).mpr ⟨htype, hall⟩] at hneeds
      cases hneeds
    rw [if_pos rfl, variance_defaultCovariance, hv, Config.clamp,
      pyMin_le_pyMin_iff v _ _ hl.maximum_cases]
    constructor
    · exact Or.inr
    · rintro (hall | h)
      · exact absurd hall hnot
      · exact h

def defaultConfig : Config (PyFloat ℚ) where
  outputFrameId := "body"
  restampToNow := false
  rejectNoFix := true
  rejectZeroLatlon := true
  minimumStatus := 0
  defaultHorizontalVariance := fin (1 / 400)
  defaultVerticalVariance := fin (1 / 25)
  minimumVariance := fin (1 / 1000000)
  maximumVariance := fin 25

theorem defaultConfig_limits : defaultConfig.Limits where
  pos := by norm_num [defaultConfig]
  le := by norm_num [defaultConfig]

def fixOf (cov : Vector (PyFloat ℚ) 9) : NavSatFix (PyFloat ℚ) where
  header := ⟨⟨1, 0⟩, "gps"⟩
  status := ⟨0, 1⟩
  latitude := fin 48
  longitude := fin 11
  altitude := fin 500
  positionCovariance := cov
  positionCovarianceType := .known

theorem fixOf_valid (cov : Vector (PyFloat ℚ) 9) : validFix defaultConfig (fixOf cov) = true := by
  have h : ¬ pyAbs (fin 48 : PyFloat ℚ) < 1.0e-12 := by
    norm_num [pyAbs, ofScientific_eq]
  simp [validFix, fixOf, defaultConfig, h]

def diagonalCov (east north up : ℚ) : Vector (PyFloat ℚ) 9 :=
  #v[fin east, fin 0, fin 0, fin 0, fin north, fin 0, fin 0, fin 0, fin up]

theorem callback_keeps_variance_measured :
    ∃ out, (callback defaultConfig State.initial (fixOf (diagonalCov 4 4 9), 0)).2 = some out ∧
      pyMin (fin 4) defaultConfig.maximumVariance ≤ variance out.positionCovariance .east := by
  have hall (axis : Axis) : Measured (variance (fixOf (diagonalCov 4 4 9)).positionCovariance axis) := by
    rw [measured_iff]
    cases axis with
    | east => exact ⟨4, rfl, by norm_num⟩
    | north => exact ⟨4, rfl, by norm_num⟩
    | up => exact ⟨9, rfl, by norm_num⟩
  obtain ⟨out, hout, hiff⟩ := callback_keeps_variance_iff defaultConfig defaultConfig_limits
    State.initial (fixOf (diagonalCov 4 4 9)) 0 .east (fixOf_valid _) (by decide) (hall .east)
  exact ⟨out, hout, hiff.mpr (Or.inl hall)⟩

/-- A receiver that reports no vertical variance has its 2 m horizontal standard
deviation published as 5 cm. -/
theorem callback_shrinks_variance :
    defaultConfig.Limits ∧ validFix defaultConfig (fixOf (diagonalCov 4 4 0)) = true ∧
    (fixOf (diagonalCov 4 4 0)).positionCovarianceType ≠ .unknown ∧
    Measured (variance (fixOf (diagonalCov 4 4 0)).positionCovariance .east) ∧
    ∃ out, (callback defaultConfig State.initial (fixOf (diagonalCov 4 4 0), 0)).2 = some out ∧
      variance out.positionCovariance .east = fin (1 / 400) ∧
      ¬ pyMin (fin 4) defaultConfig.maximumVariance ≤ variance out.positionCovariance .east := by
  have hneeds : needsRepair (fixOf (diagonalCov 4 4 0)) = true := by
    simp [needsRepair, unusable, variance, fixOf, diagonalCov, Axis.index, get_cell3]
  obtain ⟨out, hout, hcov⟩ := callback_accepted defaultConfig State.initial
    (fixOf (diagonalCov 4 4 0)) 0 (fixOf_valid _)
  have heast : variance out.positionCovariance .east = fin (1 / 400) := by
    rw [hcov, if_pos hneeds, variance_defaultCovariance]
    norm_num [Config.clamp, defaultConfig, Config.defaultVariance]
  refine ⟨defaultConfig_limits, fixOf_valid _, by decide,
    (measured_iff _).mpr ⟨4, rfl, by norm_num⟩, out, hout, heast, ?_⟩
  rw [heast]
  norm_num [defaultConfig]

end Axes

/-! ### The published matrix -/

section Matrix
open PyFloat
variable {K : Type} [Field K] [LinearOrder K] [IsStrictOrderedRing K]

/-- A covariance in the sense of the filters: finite, symmetric and positive
semidefinite. -/
def IsCovariance (cov : Vector (PyFloat K) 9) : Prop :=
  ∃ M : Sym3 K, M.PosSemidef ∧ cov = M.entries.map fin

def WithinLimits (cfg : Config (PyFloat K)) (cov : Vector (PyFloat K) 9) : Prop :=
  (∀ i : Fin 9, isfinite (cov.get i) = true) ∧
  ∀ axis, cfg.minimumVariance ≤ variance cov axis ∧ variance cov axis ≤ cfg.maximumVariance

def CorrelationsFinite (cov : Vector (PyFloat K) 9) : Prop :=
  ∀ i : Fin 9, (∀ axis : Axis, axis.index ≠ i) → isfinite (cov.get i) = true

def Config.clampSym (cfg : Config (PyFloat K)) (M : Sym3 K) : Sym3 K :=
  { M with
    xx := (cfg.clamp (fin M.xx)).val
    yy := (cfg.clamp (fin M.yy)).val
    zz := (cfg.clamp (fin M.zz)).val }

/-- The correlations fit the clamped variances: three minors are nonnegative. -/
def CorrelationsFit (cfg : Config (PyFloat K)) (M : Sym3 K) : Prop :=
  let a := (cfg.clamp (fin M.xx)).val
  let b := (cfg.clamp (fin M.yy)).val
  let c := (cfg.clamp (fin M.zz)).val
  M.xy ^ 2 ≤ a * b ∧ M.xz ^ 2 ≤ a * c ∧
  0 ≤ a * (b * c - M.yz ^ 2) - M.xy * (M.xy * c - M.yz * M.xz) + M.xz * (M.xy * M.yz - b * M.xz)

theorem clampDiagonal_entries {cfg : Config (PyFloat K)} (hl : cfg.Limits)
    (hfin : isfinite cfg.minimumVariance = true) (M : Sym3 K) :
    cfg.clampDiagonal (M.entries.map fin) = (cfg.clampSym M).entries.map fin := by
  obtain ⟨a, ha, -⟩ := Config.clamp_fin hl hfin M.xx
  obtain ⟨b, hb, -⟩ := Config.clamp_fin hl hfin M.yy
  obtain ⟨c, hc, -⟩ := Config.clamp_fin hl hfin M.zz
  ext i hi
  interval_cases i <;>
    simp [Config.clampDiagonal, Config.clampSym, Sym3.entries, get_cell3, ha, hb, hc]

theorem clampSym_posSemidef_iff {cfg : Config (PyFloat K)} (hl : cfg.Limits)
    (hfin : isfinite cfg.minimumVariance = true) (M : Sym3 K) :
    (cfg.clampSym M).PosSemidef ↔ CorrelationsFit cfg M := by
  obtain ⟨a, ha, hpos⟩ := Config.clamp_fin hl hfin M.xx
  have hxx : 0 < (cfg.clampSym M).xx := by
    simp only [Config.clampSym, ha, val_fin, hpos]
  exact Sym3.posSemidef_iff hxx

omit [Field K] [LinearOrder K] [IsStrictOrderedRing K] in
theorem entries_map_fin_inj {M N : Sym3 K} (h : M.entries.map fin = N.entries.map fin) : M = N := by
  have hi (i : Fin 9) : (M.entries.map fin)[i] = (N.entries.map fin)[i] := by rw [h]
  ext
  · simpa [Sym3.entries] using hi 0
  · simpa [Sym3.entries] using hi 4
  · simpa [Sym3.entries] using hi 8
  · simpa [Sym3.entries] using hi 1
  · simpa [Sym3.entries] using hi 2
  · simpa [Sym3.entries] using hi 5

theorem isCovariance_clampDiagonal_iff {cfg : Config (PyFloat K)} (hl : cfg.Limits)
    (hfin : isfinite cfg.minimumVariance = true) (M : Sym3 K) :
    IsCovariance (cfg.clampDiagonal (M.entries.map fin)) ↔ CorrelationsFit cfg M := by
  rw [clampDiagonal_entries hl hfin, ← clampSym_posSemidef_iff hl hfin]
  constructor
  · rintro ⟨N, hN, heq⟩
    rwa [entries_map_fin_inj heq]
  · intro h
    exact ⟨_, h, rfl⟩

theorem withinLimits_iff {cfg : Config (PyFloat K)} (hl : cfg.Limits) {cov : Vector (PyFloat K) 9}
    (hclamp : ∀ axis, ∃ x, variance cov axis = cfg.clamp (fin x)) :
    WithinLimits cfg cov ↔ isfinite cfg.minimumVariance = true ∧ CorrelationsFinite cov := by
  constructor
  · rintro ⟨hall, -⟩
    obtain ⟨x, hx⟩ := hclamp .east
    refine ⟨?_, fun i _ => hall i⟩
    rw [← Config.isfinite_clamp hl x, ← hx]
    exact hall 0
  · rintro ⟨hfin, hcorr⟩
    refine ⟨fun i => ?_, fun axis => ?_⟩
    · by_cases hi : ∀ axis : Axis, axis.index ≠ i
      · exact hcorr i hi
      · simp only [not_forall, not_not] at hi
        obtain ⟨axis, rfl⟩ := hi
        obtain ⟨x, hx⟩ := hclamp axis
        have h := (Config.isfinite_clamp hl x).mpr hfin
        rw [← hx] at h
        exact h
    · obtain ⟨x, hx⟩ := hclamp axis
      rw [hx]
      exact Config.clamp_mem hl x

/-! The two cases of the repair. -/

theorem withinLimits_defaultCovariance_iff {cfg : Config (PyFloat K)} (hl : cfg.Limits)
    (hdef : ∀ axis, Measured (cfg.defaultVariance axis)) :
    WithinLimits cfg cfg.defaultCovariance ↔ isfinite cfg.minimumVariance = true := by
  have hcorr : CorrelationsFinite cfg.defaultCovariance := by
    intro i hi
    fin_cases i
    · exact absurd rfl (hi .east)
    · rfl
    · rfl
    · rfl
    · exact absurd rfl (hi .north)
    · rfl
    · rfl
    · rfl
    · exact absurd rfl (hi .up)
  rw [withinLimits_iff hl]
  · exact and_iff_left hcorr
  · intro axis
    obtain ⟨x, hx, -⟩ := (measured_iff _).mp (hdef axis)
    exact ⟨x, by rw [variance_defaultCovariance, hx]⟩

theorem isCovariance_defaultCovariance {cfg : Config (PyFloat K)} (hl : cfg.Limits)
    (hdef : ∀ axis, Measured (cfg.defaultVariance axis))
    (hfin : isfinite cfg.minimumVariance = true) : IsCovariance cfg.defaultCovariance := by
  have hclamp (axis : Axis) : ∃ y, cfg.clamp (cfg.defaultVariance axis) = fin y ∧ 0 < y := by
    obtain ⟨x, hx, -⟩ := (measured_iff _).mp (hdef axis)
    rw [hx]
    exact Config.clamp_fin hl hfin x
  obtain ⟨a, ha, ha0⟩ := hclamp .east
  obtain ⟨b, hb, hb0⟩ := hclamp .north
  obtain ⟨c, hc, hc0⟩ := hclamp .up
  refine ⟨⟨a, b, c, 0, 0, 0⟩, Sym3.posSemidef_diagonal ha0 hb0 hc0, ?_⟩
  ext i hi
  interval_cases i <;> simp [Config.defaultCovariance, Sym3.entries, ha, hb, hc]

theorem withinLimits_clampDiagonal_iff {cfg : Config (PyFloat K)} (hl : cfg.Limits)
    {cov : Vector (PyFloat K) 9} (hdiag : ∀ axis, Measured (variance cov axis)) :
    WithinLimits cfg (cfg.clampDiagonal cov) ↔
      isfinite cfg.minimumVariance = true ∧ CorrelationsFinite cov := by
  have hoff (i : Fin 9) (hi : ∀ axis : Axis, axis.index ≠ i) :
      (cfg.clampDiagonal cov).get i = cov.get i := by
    fin_cases i
    · exact absurd rfl (hi .east)
    · rfl
    · rfl
    · rfl
    · exact absurd rfl (hi .north)
    · rfl
    · rfl
    · rfl
    · exact absurd rfl (hi .up)
  rw [withinLimits_iff hl]
  · refine and_congr_right fun _ => forall_congr' fun i => forall_congr' fun hi => ?_
    rw [hoff i hi]
  · intro axis
    obtain ⟨x, hx, -⟩ := (measured_iff _).mp (hdiag axis)
    exact ⟨x, by rw [variance_clampDiagonal, hx]⟩

/-- What the filter is promised of the covariance published for `msg`. -/
def ValidFor (cfg : Config (PyFloat K)) (msg out : NavSatFix (PyFloat K)) : Prop :=
  WithinLimits cfg out.positionCovariance ∧
  (IsCovariance msg.positionCovariance → IsCovariance out.positionCovariance)

/-- The published covariance is valid exactly when it was replaced, or its
correlations were finite and fit the clamped variances. -/
theorem callback_validFor_iff (cfg : Config (PyFloat K)) (hl : cfg.Limits)
    (hdef : ∀ axis, Measured (cfg.defaultVariance axis)) (st : State)
    (msg : NavSatFix (PyFloat K)) (now : ℤ) (hvalid : validFix cfg msg = true) :
    ∃ out, (callback cfg st (msg, now)).2 = some out ∧
      (ValidFor cfg msg out ↔ isfinite cfg.minimumVariance = true ∧
        ((msg.positionCovarianceType = .unknown ∨
            ∃ axis, ¬ Measured (variance msg.positionCovariance axis)) ∨
          CorrelationsFinite msg.positionCovariance ∧
          ∀ M : Sym3 K, M.PosSemidef → msg.positionCovariance = M.entries.map fin →
            CorrelationsFit cfg M)) := by
  obtain ⟨out, hout, hcov⟩ := callback_accepted cfg st msg now hvalid
  refine ⟨out, hout, ?_⟩
  rw [ValidFor, hcov]
  by_cases hneeds : needsRepair msg = false
  · have hmeas := (needsRepair_eq_false_iff msg).mp hneeds
    have hnot : ¬ (msg.positionCovarianceType = .unknown ∨
        ∃ axis, ¬ Measured (variance msg.positionCovariance axis)) := by
      rintro (htype | ⟨axis, haxis⟩)
      · exact hmeas.1 htype
      · exact haxis (hmeas.2 axis)
    rw [hneeds, if_neg Bool.false_ne_true, withinLimits_clampDiagonal_iff hl hmeas.2,
      or_iff_right hnot, and_assoc]
    refine and_congr_right fun hfin => and_congr_right fun _ => ?_
    constructor
    · intro h M hM heq
      rw [← isCovariance_clampDiagonal_iff hl hfin M, ← heq]
      exact h ⟨M, hM, heq⟩
    · rintro h ⟨M, hM, heq⟩
      rw [heq, isCovariance_clampDiagonal_iff hl hfin M]
      exact h M hM heq
  · have hrepair : msg.positionCovarianceType = .unknown ∨
        ∃ axis, ¬ Measured (variance msg.positionCovariance axis) := by
      by_contra hnone
      simp only [not_or, not_exists, not_not] at hnone
      exact hneeds ((needsRepair_eq_false_iff msg).mpr hnone)
    rw [if_pos (Bool.eq_true_of_not_eq_false hneeds), withinLimits_defaultCovariance_iff hl hdef]
    constructor
    · rintro ⟨hfin, -⟩
      exact ⟨hfin, Or.inl hrepair⟩
    · rintro ⟨hfin, -⟩
      exact ⟨hfin, fun _ => isCovariance_defaultCovariance hl hdef hfin⟩

theorem defaultConfig_measured (axis : Axis) : Measured (defaultConfig.defaultVariance axis) := by
  rw [measured_iff]
  cases axis with
  | east => exact ⟨1 / 400, rfl, by norm_num⟩
  | north => exact ⟨1 / 400, rfl, by norm_num⟩
  | up => exact ⟨1 / 25, rfl, by norm_num⟩

theorem callback_validFor_correlated :
    let M : Sym3 ℚ := ⟨4, 4, 9, 1, 0, 0⟩
    ∃ out, (callback defaultConfig State.initial (fixOf (M.entries.map fin), 0)).2 = some out ∧
      ValidFor defaultConfig (fixOf (M.entries.map fin)) out := by
  intro M
  have hfit : CorrelationsFit defaultConfig M := by
    norm_num [CorrelationsFit, Config.clamp, defaultConfig, M]
  obtain ⟨out, hout, hiff⟩ := callback_validFor_iff defaultConfig defaultConfig_limits
    defaultConfig_measured State.initial (fixOf (M.entries.map fin)) 0 (fixOf_valid _)
  refine ⟨out, hout, hiff.mpr ⟨rfl, Or.inr ⟨fun i _ => ?_, fun N _ hN => ?_⟩⟩⟩
  · change isfinite (M.entries.map fin)[(i : ℕ)] = true
    rw [Vector.getElem_map, isfinite_fin]
  · rw [← entries_map_fin_inj hN]
    exact hfit

/-- A NaN between east and north is passed on, and a 10 m fix with correlation
one half leaves the node with its variances cut to 25 and no longer positive
semidefinite. -/
theorem callback_not_validFor :
    let nanFix := fixOf #v[fin 4, nan, fin 0, nan, fin 4, fin 0, fin 0, fin 0, fin 9]
    let M : Sym3 ℚ := ⟨100, 100, 100, 50, 0, 0⟩
    let wideFix := fixOf (M.entries.map fin)
    (validFix defaultConfig nanFix = true ∧
      ∃ out, (callback defaultConfig State.initial (nanFix, 0)).2 = some out ∧
        ¬ WithinLimits defaultConfig out.positionCovariance) ∧
    (validFix defaultConfig wideFix = true ∧ IsCovariance wideFix.positionCovariance ∧
      ∃ out, (callback defaultConfig State.initial (wideFix, 0)).2 = some out ∧
        ¬ IsCovariance out.positionCovariance) := by
  intro nanFix M wideFix
  constructor
  · have hneeds : needsRepair nanFix = false := by
      simp [needsRepair, unusable, variance, nanFix, fixOf, Axis.index, get_cell3]
    obtain ⟨out, hout, hcov⟩ := callback_accepted defaultConfig State.initial nanFix 0 (fixOf_valid _)
    refine ⟨fixOf_valid _, out, hout, ?_⟩
    rw [hcov, hneeds, if_neg Bool.false_ne_true]
    rintro ⟨hall, -⟩
    exact Bool.false_ne_true (hall 1)
  · have hneeds : needsRepair wideFix = false := by
      simp [needsRepair, unusable, variance, wideFix, fixOf, Axis.index, get_cell3,
        Sym3.entries, M]
    have hpsd : M.PosSemidef := by
      refine (Sym3.posSemidef_iff (by norm_num [M])).mpr ?_
      norm_num [Sym3.det, M]
    have hunfit : ¬ CorrelationsFit defaultConfig M := by
      norm_num [CorrelationsFit, Config.clamp, defaultConfig, M]
    obtain ⟨out, hout, hcov⟩ := callback_accepted defaultConfig State.initial wideFix 0 (fixOf_valid _)
    refine ⟨fixOf_valid _, ⟨M, hpsd, rfl⟩, out, hout, ?_⟩
    rw [hcov, hneeds, if_neg Bool.false_ne_true]
    exact fun h => hunfit ((isCovariance_clampDiagonal_iff defaultConfig_limits rfl M).mp h)

end Matrix

end NavSatFixSanitizer
end RtkLocalization
