import RtkLocalization.PyMath

/-!
# The `math` functions on floats with NaN and infinities

`PyMath` at `PyFloat ℝ`: exact on finite arguments, IEEE 754 elsewhere. Where
Python raises `ValueError` instead of returning a value (`math.sin` and
`math.cos` of an infinity, `math.sqrt` of a negative number) the instance has
NaN, and the model of a callback that can get there says so itself.
-/

namespace RtkLocalization

open Real PyFloat

namespace PyFloatMath

noncomputable section

def sqrt : PyFloat ℝ → PyFloat ℝ
  | fin x => if x < 0 then nan else fin √x
  | inf => inf
  | _ => nan

def sin : PyFloat ℝ → PyFloat ℝ
  | fin x => fin (Real.sin x)
  | _ => nan

def cos : PyFloat ℝ → PyFloat ℝ
  | fin x => fin (Real.cos x)
  | _ => nan

def atan2 : PyFloat ℝ → PyFloat ℝ → PyFloat ℝ
  | nan, _ => nan
  | _, nan => nan
  | fin y, fin x => fin (Planar.atan2 y x)
  | fin _, inf => fin 0
  | fin y, neginf => fin (if y < 0 then -π else π)
  | inf, fin _ => fin (π / 2.0)
  | neginf, fin _ => fin (-(π / 2.0))
  | inf, inf => fin (π / 4.0)
  | neginf, inf => fin (-(π / 4.0))
  | inf, neginf => fin (3.0 * π / 4.0)
  | neginf, neginf => fin (-(3.0 * π / 4.0))

/-- An infinite coordinate wins over NaN. -/
def hypot (x y : PyFloat ℝ) : PyFloat ℝ :=
  if isinf x || isinf y then inf
  else
    match x, y with
    | fin x, fin y => fin (Planar.hypot x y)
    | _, _ => nan

end

end PyFloatMath

noncomputable instance : PyMath (PyFloat ℝ) where
  sqrt := PyFloatMath.sqrt
  sin := PyFloatMath.sin
  cos := PyFloatMath.cos
  atan2 := PyFloatMath.atan2
  hypot := PyFloatMath.hypot
  radians x := x * fin (PyMath.radians 1)
  degrees x := x * fin (PyMath.degrees 1)

theorem isfinite_sqrt {a : PyFloat ℝ} (h : isfinite (PyMath.sqrt a) = true) :
    isfinite a = true := by
  cases a with
  | fin x => rfl
  | inf => exact h
  | neginf => exact h
  | nan => exact h

theorem isfinite_atan2 {y x : PyFloat ℝ} (hy : isfinite y = true) (hx : isfinite x = true) :
    isfinite (PyMath.atan2 y x) = true := by
  cases y with
  | fin y =>
    cases x with
    | fin x => rfl
    | inf => cases hx
    | neginf => cases hx
    | nan => cases hx
  | inf => cases hy
  | neginf => cases hy
  | nan => cases hy

end RtkLocalization
