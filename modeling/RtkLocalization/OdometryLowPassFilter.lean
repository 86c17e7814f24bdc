import RtkLocalization.Lib.Callback
import RtkLocalization.PyMath

/-!
# `odometry_low_pass_filter.py`

First-order smoothing of the GPS odometry: each coordinate moves by the fraction
`alpha` towards the new sample. Nothing checks the sample, so `finite_published_iff`
follows one non-finite position through the rest of a run: the filter never
recovers from it.
-/

namespace RtkLocalization
namespace OdometryLowPassFilter

structure Config (α : Type) where
  alpha : α
  positionVarianceFloor : α

/-- `filtered` holds `filtered_x`, `filtered_y` and `filtered_z`, which the
callback sets together. -/
structure State (α : Type) where
  received : ℕ
  published : ℕ
  filtered : Option (Vec3 α)

def State.initial {α : Type} : State α := ⟨0, 0, none⟩

section Model
variable {α : Type} [OfScientific α] [LT α] [DecidableLT α]

def Config.ofParameters (alpha positionVarianceFloor : α) : Config α where
  alpha := pyMin (pyMax alpha 0.0) 1.0
  positionVarianceFloor := pyMax 0.0 positionVarianceFloor

def inflateEntry [IsFinite α] (floor : α) (cov : Vector α 36) (idx : Fin 36) : Vector α 36 :=
  let current := cov.get idx
  if !isfinite current || decide (current < floor) then setCell cov idx floor else cov

def inflatePositionCovariance [IsFinite α] [LE α] [DecidableLE α] (cfg : Config α)
    (cov : Vector α 36) : Vector α 36 :=
  if cfg.positionVarianceFloor ≤ 0.0 then cov
  else [cell6 0, cell6 7, cell6 14].foldl (inflateEntry cfg.positionVarianceFloor) cov

variable [Add α] [Sub α] [Mul α]

/-- `filtered += alpha * (raw - filtered)`, or the first sample as it is. -/
def smooth (cfg : Config α) (filtered : Option (Vec3 α)) (raw : Vec3 α) : Vec3 α :=
  match filtered with
  | none => raw
  | some f =>
    ⟨f.x + cfg.alpha * (raw.x - f.x), f.y + cfg.alpha * (raw.y - f.y),
      f.z + cfg.alpha * (raw.z - f.z)⟩

def callback [IsFinite α] [LE α] [DecidableLE α] (cfg : Config α) :
    Callback.Step (State α) (Odometry α) (Odometry α) := fun st msg =>
  let filtered := smooth cfg st.filtered msg.pose.pose.position
  let pose := { msg.pose.pose with position := filtered }
  let out :=
    { msg with pose := ⟨pose, inflatePositionCovariance cfg msg.pose.covariance⟩ }
  (⟨st.received + 1, st.published + 1, some filtered⟩, some out)

end Model

/-! ### Finite positions -/

section Finite
open PyFloat
variable {K : Type} [Field K] [LinearOrder K]

def FiniteVec (v : Vec3 (PyFloat K)) : Prop :=
  isfinite v.x = true ∧ isfinite v.y = true ∧ isfinite v.z = true

def FinitePosition (msg : Odometry (PyFloat K)) : Prop := FiniteVec msg.pose.pose.position

def Clean (st : State (PyFloat K)) : Prop := ∀ f, st.filtered = some f → FiniteVec f

omit [Field K] [LinearOrder K] in
theorem clean_init : Clean (State.initial : State (PyFloat K)) := by
  intro f hf
  cases hf

theorem ofParameters_alpha [IsStrictOrderedRing K] {alpha : PyFloat K} (h0 : 0.0 < alpha)
    (h1 : alpha ≤ 1.0) (floor : PyFloat K) :
    ∃ a : K, 0 < a ∧ (Config.ofParameters alpha floor).alpha = fin a := by
  rw [PyFloat.zero_literal] at h0
  rw [PyFloat.one_literal] at h1
  cases alpha with
  | fin a =>
    rw [fin_lt_fin] at h0
    rw [fin_le_fin] at h1
    refine ⟨a, h0, ?_⟩
    simp only [Config.ofParameters, PyFloat.zero_literal, PyFloat.one_literal, pyMax_fin, pyMin_fin,
      max_eq_left h0.le, min_eq_left h1]
  | inf => exact absurd h1 (not_inf_le_fin _)
  | neginf => exact absurd h0 (not_fin_lt_neginf _)
  | nan => exact absurd h0 (not_lt_nan _)

theorem isfinite_smooth {a : K} (ha : 0 < a) (f raw : PyFloat K) :
    isfinite (f + fin a * (raw - f)) = true ↔ isfinite f = true ∧ isfinite raw = true := by
  rw [isfinite_add, isfinite_fin_mul ha, isfinite_sub]
  tauto

theorem finiteVec_smooth {cfg : Config (PyFloat K)} {a : K} (ha : 0 < a) (hcfg : cfg.alpha = fin a)
    (st : State (PyFloat K)) (raw : Vec3 (PyFloat K)) :
    FiniteVec (smooth cfg st.filtered raw) ↔ Clean st ∧ FiniteVec raw := by
  cases hf : st.filtered with
  | none =>
    have hclean : Clean st := by
      intro f h
      rw [hf] at h
      cases h
    exact (and_iff_right hclean).symm
  | some f =>
    have hclean : Clean st ↔ FiniteVec f := by
      simp only [Clean, hf, Option.some.injEq, forall_eq']
    rw [hclean]
    simp only [smooth, FiniteVec, hcfg, isfinite_smooth ha]
    tauto

variable {cfg : Config (PyFloat K)} {a : K}

theorem clean_callback (ha : 0 < a) (hcfg : cfg.alpha = fin a) (st : State (PyFloat K))
    (msg : Odometry (PyFloat K)) :
    Clean (callback cfg st msg).1 ↔ Clean st ∧ FinitePosition msg := by
  rw [FinitePosition, ← finiteVec_smooth ha hcfg]
  simp only [Clean, callback, Option.some.injEq, forall_eq']

def PublishesFinite (cfg : Config (PyFloat K)) (st : State (PyFloat K))
    (msg : Odometry (PyFloat K)) : Prop :=
  ∃ out, (callback cfg st msg).2 = some out ∧ FinitePosition out

theorem publishesFinite_iff (ha : 0 < a) (hcfg : cfg.alpha = fin a) (st : State (PyFloat K))
    (msg : Odometry (PyFloat K)) :
    PublishesFinite cfg st msg ↔ Clean st ∧ FinitePosition msg := by
  rw [FinitePosition, ← finiteVec_smooth ha hcfg]
  simp only [PublishesFinite, callback, Option.some.injEq, exists_eq_left', FinitePosition]

/-- Along a run: the finite messages are published finite from the start of the
run on, or from a clean state until the first non-finite one. -/
theorem allSteps_publishesFinite_iff (ha : 0 < a) (hcfg : cfg.alpha = fin a)
    (st : State (PyFloat K)) (msgs : List (Odometry (PyFloat K))) :
    Callback.AllSteps (callback cfg) (fun s m => FinitePosition m → PublishesFinite cfg s m) st msgs
      ↔ msgs.Pairwise (fun earlier later => FinitePosition later → FinitePosition earlier) ∧
        (Clean st ∨ ∀ m ∈ msgs, ¬ FinitePosition m) := by
  induction msgs generalizing st with
  | nil => simp [Callback.AllSteps]
  | cons m ms ih =>
    rw [Callback.AllSteps, ih, clean_callback ha hcfg, publishesFinite_iff ha hcfg,
      List.pairwise_cons, List.forall_mem_cons]
    -- before a non-finite message anything may come, after it only non-finite ones
    by_cases hm : FinitePosition m
    · simp only [hm]
      tauto
    · simp only [hm]
      tauto

def sampleAt (x : PyFloat ℚ) : Odometry (PyFloat ℚ) where
  header := ⟨⟨1, 0⟩, "map"⟩
  childFrameId := "body"
  pose := ⟨⟨⟨x, fin 0, fin 0⟩, ⟨fin 0, fin 0, fin 0, fin 1⟩⟩, Vector.replicate 36 (fin 0)⟩
  twist := ⟨⟨⟨fin 0, fin 0, fin 0⟩, ⟨fin 0, fin 0, fin 0⟩⟩, Vector.replicate 36 (fin 0)⟩

theorem finitePosition_sampleAt (x : PyFloat ℚ) :
    FinitePosition (sampleAt x) ↔ isfinite x = true := by
  simp [FinitePosition, FiniteVec, sampleAt]

end Finite

end OdometryLowPassFilter
end RtkLocalization
