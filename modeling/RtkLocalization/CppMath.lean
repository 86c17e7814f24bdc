import RtkLocalization.PyFloatMath

/-!
# The `<cmath>` functions and conversions of the C++ node

`CppMath` holds what `pointcloud_to_laserscan_node.cpp` uses on `float` and
`double`, which the model does not tell apart: `toFloat` is the narrowing to
`float`. At `PyFloat ℝ` every function is exact. A conversion to an integer type
is undefined in C++ when the value does not fit; the instance is exact for every
finite value, whatever the width of the type, and returns what the x86
instructions return for NaN and the infinities.
-/

namespace RtkLocalization

class CppMath (α : Type) where
  hypot : α → α → α
  atan2 : α → α → α
  fabs : α → α
  isnan : α → Bool
  infinity : α
  quietNaN : α
  -- Narrowing of a `double` to a `float`.
  toFloat : α → α
  ofNat : ℕ → α
  -- `static_cast<int>(std::floor(x))`.
  floorInt : α → ℤ
  -- `static_cast<int>(x)`.
  truncInt : α → ℤ
  -- `std::ceil(x)` as an unsigned integer.
  ceilSize : α → ℕ
  -- `static_cast<size_t>(std::round(x))`.
  roundSize : α → ℕ

open PyFloat

namespace CppFloat

/-- Result of the conversion instructions when the value does not fit. -/
def indefinite : ℤ := -(2 ^ 31)

noncomputable section

def fabs : PyFloat ℝ → PyFloat ℝ
  | fin x => fin |x|
  | neginf => inf
  | a => a

def floorInt : PyFloat ℝ → ℤ
  | fin x => ⌊x⌋
  | _ => indefinite

def truncInt : PyFloat ℝ → ℤ
  | fin x => if 0 ≤ x then ⌊x⌋ else ⌈x⌉
  | _ => indefinite

def ceilSize : PyFloat ℝ → ℕ
  | fin x => ⌈x⌉.toNat
  | _ => 0

/-- `std::round` rounds half away from zero; every negative value becomes 0. -/
def roundSize : PyFloat ℝ → ℕ
  | fin x => ⌊x + 0.5⌋.toNat
  | _ => 0

end

end CppFloat

noncomputable instance : CppMath (PyFloat ℝ) where
  hypot := PyFloatMath.hypot
  atan2 := PyFloatMath.atan2
  fabs := CppFloat.fabs
  isnan := PyFloat.isnan
  infinity := inf
  quietNaN := nan
  toFloat a := a
  ofNat n := fin n
  floorInt := CppFloat.floorInt
  truncInt := CppFloat.truncInt
  ceilSize := CppFloat.ceilSize
  roundSize := CppFloat.roundSize

end RtkLocalization
