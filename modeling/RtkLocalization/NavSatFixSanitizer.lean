import RtkLocalization.Lib.Callback
import RtkLocalization.PyMath

/-!
# `navsat_fix_sanitizer.py`

Drops unusable RTK fixes and repairs the covariance of the others. The model is
run over `PyFloat K`: a receiver may send NaN or an infinity in every field, and
the configured limits are floats too.

`repairCovariance_eq` says what the loop over the diagonal does: the matrix is
replaced by the default diagonal if any axis needs repair, otherwise the three
variances are clamped and the correlations kept.
-/

namespace RtkLocalization
namespace NavSatFixSanitizer

structure Config (α : Type) where
  outputFrameId : String
  restampToNow : Bool
  rejectNoFix : Bool
  rejectZeroLatlon : Bool
  minimumStatus : ℤ
  defaultHorizontalVariance : α
  defaultVerticalVariance : α
  minimumVariance : α
  maximumVariance : α

structure State where
  received : ℕ
  published : ℕ
  dropped : ℕ
  covarianceRepaired : ℕ
  deriving DecidableEq, Repr

def State.initial : State := ⟨0, 0, 0, 0⟩

inductive Axis where
  | east
  | north
  | up
  deriving DecidableEq, Repr

def Axis.index : Axis → Fin 9
  | east => cell3 0
  | north => cell3 4
  | up => cell3 8

def Config.defaultVariance {α : Type} (cfg : Config α) : Axis → α
  | .east => cfg.defaultHorizontalVariance
  | .north => cfg.defaultHorizontalVariance
  | .up => cfg.defaultVerticalVariance

section Model
variable {α : Type} [OfScientific α] [IsFinite α] [LT α] [DecidableLT α] [LE α] [DecidableLE α]

def validFix [Neg α] (cfg : Config α) (msg : NavSatFix α) : Bool :=
  if !(isfinite msg.latitude && isfinite msg.longitude && isfinite msg.altitude) then false
  else if cfg.rejectZeroLatlon && decide (pyAbs msg.latitude < 1.0e-12)
      && decide (pyAbs msg.longitude < 1.0e-12) then false
  else if cfg.rejectNoFix && decide (msg.status.status < cfg.minimumStatus) then false
  else true

def Config.clamp (cfg : Config α) (v : α) : α :=
  pyMin (pyMax v cfg.minimumVariance) cfg.maximumVariance

def unusable (value : α) : Bool := !isfinite value || decide (value ≤ 0.0)

/-- One turn of the loop over `zip(diag_indices, defaults)`. -/
def repairAxis (cfg : Config α) (s : Vector α 9 × Bool) (axis : Axis) : Vector α 9 × Bool :=
  let value := s.1.get axis.index
  let cov := if unusable value then setCell s.1 axis.index (cfg.defaultVariance axis) else s.1
  (setCell cov axis.index (cfg.clamp (cov.get axis.index)), s.2 || unusable value)

/-- The loop: the matrix after it and the shared `repaired` flag. -/
def repairLoop (cfg : Config α) (msg : NavSatFix α) : Vector α 9 × Bool :=
  [Axis.east, .north, .up].foldl (repairAxis cfg)
    (msg.positionCovariance, decide (msg.positionCovarianceType = .unknown))

def Config.defaultCovariance (cfg : Config α) : Vector α 9 :=
  #v[cfg.clamp (cfg.defaultVariance .east), 0.0, 0.0,
    0.0, cfg.clamp (cfg.defaultVariance .north), 0.0,
    0.0, 0.0, cfg.clamp (cfg.defaultVariance .up)]

/-- `_repair_covariance`: the message as it leaves it, and its return value. -/
def repairCovariance (cfg : Config α) (msg : NavSatFix α) : NavSatFix α × Bool :=
  if (repairLoop cfg msg).2 then
    ({ msg with
        positionCovariance := cfg.defaultCovariance
        positionCovarianceType := .diagonalKnown }, true)
  else ({ msg with positionCovariance := (repairLoop cfg msg).1 }, false)

/-- `_callback` on a message and the clock reading in nanoseconds. -/
def callback [Neg α] (cfg : Config α) : Callback.Step State (NavSatFix α × ℤ) (NavSatFix α) :=
    fun st ⟨msg, now⟩ =>
  let st := { st with received := st.received + 1 }
  if !validFix cfg msg then ({ st with dropped := st.dropped + 1 }, none)
  else
    let stamp := if cfg.restampToNow then Stamp.ofNanoseconds now else msg.header.stamp
    let out := { msg with header := ⟨stamp, cfg.outputFrameId⟩ }
    let (out, repaired) := repairCovariance cfg out
    let st := if repaired then { st with covarianceRepaired := st.covarianceRepaired + 1 } else st
    ({ st with published := st.published + 1 }, some out)

/-! ### What the loop computes -/

def variance (cov : Vector α 9) (axis : Axis) : α := cov.get axis.index

/-- The covariance is replaced as a whole: its type is unknown or one of the
three variances is unusable. -/
def needsRepair (msg : NavSatFix α) : Bool :=
  decide (msg.positionCovarianceType = .unknown) || unusable (variance msg.positionCovariance .east)
    || unusable (variance msg.positionCovariance .north)
    || unusable (variance msg.positionCovariance .up)

def Config.clampDiagonal (cfg : Config α) (cov : Vector α 9) : Vector α 9 :=
  #v[cfg.clamp (cov.get (cell3 0)), cov.get (cell3 1), cov.get (cell3 2),
    cov.get (cell3 3), cfg.clamp (cov.get (cell3 4)), cov.get (cell3 5),
    cov.get (cell3 6), cov.get (cell3 7), cfg.clamp (cov.get (cell3 8))]

omit [OfScientific α] [IsFinite α] [LE α] [DecidableLE α] in
theorem variance_clampDiagonal (cfg : Config α) (cov : Vector α 9) (axis : Axis) :
    variance (cfg.clampDiagonal cov) axis = cfg.clamp (variance cov axis) := by
  cases axis <;> rfl

omit [IsFinite α] [LE α] [DecidableLE α] in
theorem variance_defaultCovariance (cfg : Config α) (axis : Axis) :
    variance cfg.defaultCovariance axis = cfg.clamp (cfg.defaultVariance axis) := by
  cases axis <;> rfl

theorem repairAxis_snd (cfg : Config α) (s : Vector α 9 × Bool) (axis : Axis) :
    (repairAxis cfg s axis).2 = (s.2 || unusable (s.1.get axis.index)) := rfl

theorem repairAxis_get_of_ne (cfg : Config α) (s : Vector α 9 × Bool) (axis : Axis) (i : Fin 9)
    (hi : axis.index ≠ i) : (repairAxis cfg s axis).1.get i = s.1.get i := by
  simp only [repairAxis, get_setCell, if_neg hi]
  split_ifs
  · rw [get_setCell, if_neg hi]
  · rfl

theorem repairAxis_of_usable (cfg : Config α) (s : Vector α 9 × Bool) (axis : Axis)
    (h : unusable (s.1.get axis.index) = false) :
    (repairAxis cfg s axis).1 = setCell s.1 axis.index (cfg.clamp (s.1.get axis.index)) := by
  simp only [repairAxis, h]
  rfl

theorem repairLoop_snd (cfg : Config α) (msg : NavSatFix α) :
    (repairLoop cfg msg).2 = needsRepair msg := by
  simp only [repairLoop, List.foldl_cons, List.foldl_nil, repairAxis_snd]
  rw [repairAxis_get_of_ne _ _ .north _ (by decide),
    repairAxis_get_of_ne _ _ .east Axis.up.index (by decide),
    repairAxis_get_of_ne _ _ .east Axis.north.index (by decide)]
  rfl

theorem repairLoop_fst (cfg : Config α) (msg : NavSatFix α) (h : needsRepair msg = false) :
    (repairLoop cfg msg).1 = cfg.clampDiagonal msg.positionCovariance := by
  simp only [needsRepair, Bool.or_eq_false_iff] at h
  obtain ⟨⟨⟨-, heast⟩, hnorth⟩, hup⟩ := h
  simp only [repairLoop, List.foldl_cons, List.foldl_nil]
  rw [repairAxis_of_usable, repairAxis_of_usable, repairAxis_of_usable]
  · refine vector_ext_get fun i => ?_
    fin_cases i <;> simp [get_setCell, Axis.index] <;> rfl
  · exact heast
  · rw [repairAxis_get_of_ne _ _ _ _ (by decide)]
    exact hnorth
  · rw [repairAxis_get_of_ne _ _ _ _ (by decide), repairAxis_get_of_ne _ _ _ _ (by decide)]
    exact hup

theorem repairCovariance_eq (cfg : Config α) (msg : NavSatFix α) :
    repairCovariance cfg msg =
      if needsRepair msg then
        ({ msg with
            positionCovariance := cfg.defaultCovariance
            positionCovarianceType := .diagonalKnown }, true)
      else ({ msg with positionCovariance := cfg.clampDiagonal msg.positionCovariance }, false) := by
  rw [repairCovariance, repairLoop_snd]
  by_cases h : needsRepair msg = true
  · rw [if_pos h, if_pos h]
  · rw [if_neg h, if_neg h, repairLoop_fst cfg msg (Bool.eq_false_iff.mpr h)]

theorem callback_accepted [Neg α] (cfg : Config α) (st : State) (msg : NavSatFix α) (now : ℤ)
    (h : validFix cfg msg = true) :
    ∃ out, (callback cfg st (msg, now)).2 = some out ∧
      out.positionCovariance =
        if needsRepair msg then cfg.defaultCovariance
        else cfg.clampDiagonal msg.positionCovariance := by
  simp only [callback, h, Bool.not_true, Bool.false_eq_true, if_false, repairCovariance_eq]
  refine ⟨_, rfl, ?_⟩
  -- the header plays no part in the repair
  show (if needsRepair msg = true then _ else _ : NavSatFix α × Bool).1.positionCovariance = _
  cases needsRepair msg with
  | true => rfl
  | false => rfl

end Model

end NavSatFixSanitizer
end RtkLocalization
