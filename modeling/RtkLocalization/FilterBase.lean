import Mathlib.Algebra.Order.Group.Int
import Mathlib.Data.List.Induction

/-!
# `filter_base.cpp`

What `FilterBase` does with times and measurements. The numbers are behind a
`Kernel`: the estimate (state and covariance) is of any type, and so is the control
vector. Times are nanoseconds.
-/

namespace RtkLocalization
namespace FilterBase

structure Measurement (β γ : Type) where
  time : ℤ
  body : β
  latestControl : γ × ℤ
deriving DecidableEq

/-- The first measurement, `predict` (control, reference time, delta) and `correct`. -/
structure Kernel (κ β γ : Type) where
  start : β → κ → κ
  predict : γ × ℤ → ℤ → ℤ → κ → κ
  correct : β → κ → κ

/-- `control` is `latest_control_` with its time. -/
structure Filter (κ γ : Type) where
  initialized : Bool
  estimate : κ
  lastMeasurementTime : ℤ
  control : γ × ℤ

variable {κ β γ : Type}

def processMeasurement (k : Kernel κ β γ) (f : Filter κ γ) (m : Measurement β γ) : Filter κ γ :=
  if f.initialized then
    let delta := m.time - f.lastMeasurementTime
    let predicted :=
      if 0 < delta then k.predict f.control m.time delta f.estimate else f.estimate
    { f with
      estimate := k.correct m.body predicted
      lastMeasurementTime := if 0 ≤ delta then m.time else f.lastMeasurementTime }
  else
    { f with
      initialized := true
      estimate := k.start m.body f.estimate
      lastMeasurementTime := m.time }

theorem processMeasurement_initialized (k : Kernel κ β γ) (f : Filter κ γ) (m : Measurement β γ) :
    (processMeasurement k f m).initialized = true := by
  unfold processMeasurement
  split_ifs with h
  · exact h
  · rfl

theorem processMeasurement_control (k : Kernel κ β γ) (f : Filter κ γ) (m : Measurement β γ) :
    (processMeasurement k f m).control = f.control := by
  unfold processMeasurement
  split_ifs <;> rfl

theorem processMeasurement_time (k : Kernel κ β γ) (f : Filter κ γ) (m : Measurement β γ) :
    (processMeasurement k f m).lastMeasurementTime
      = if f.initialized then max f.lastMeasurementTime m.time else m.time := by
  unfold processMeasurement
  split_ifs with h
  · simp only
    split_ifs <;> omega
  · rfl

/-- `J` holds of every estimate the kernel makes of measurements that are `good`, when the
first one meets an estimate with `J₀`. The kernel is never asked to predict backwards. -/
structure Kernel.Preserves (k : Kernel κ β γ) (J₀ J : κ → Prop) (good : β → Prop) : Prop where
  start : ∀ b x, good b → J₀ x → J (k.start b x)
  predict : ∀ c t d x, 0 ≤ d → J x → J (k.predict c t d x)
  correct : ∀ b x, good b → J x → J (k.correct b x)

/-- The estimate is one the kernel can go on from. -/
def Sound (J₀ J : κ → Prop) (f : Filter κ γ) : Prop :=
  if f.initialized then J f.estimate else J₀ f.estimate

theorem Sound.initialized {J₀ J : κ → Prop} {f : Filter κ γ} (h : Sound J₀ J f)
    (hf : f.initialized) : J f.estimate := by
  rwa [Sound, if_pos hf] at h

theorem processMeasurement_preserves {k : Kernel κ β γ} {J₀ J : κ → Prop} {good : β → Prop}
    (hk : k.Preserves J₀ J good) {f : Filter κ γ} (hf : Sound J₀ J f) {m : Measurement β γ}
    (hm : good m.body) : Sound J₀ J (processMeasurement k f m) := by
  rw [Sound, if_pos (processMeasurement_initialized k f m)]
  unfold Sound at hf
  unfold processMeasurement
  split_ifs at hf ⊢
  · apply hk.correct _ _ hm
    split_ifs with hdelta
    · exact hk.predict _ _ _ _ hdelta.le hf
    · exact hf
  · exact hk.start _ _ hm hf

end FilterBase
end RtkLocalization
