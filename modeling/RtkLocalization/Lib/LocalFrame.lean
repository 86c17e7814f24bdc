import RtkLocalization.Lib.Rotation

/-!
# Local east-north-up frames

The tangent frame at latitude `lat` and longitude `lon` (radians) of a globe
with the polar axis along z. `toGlobal` and `toLocal` are the two directions of
the change of basis; they are inverse to each other and keep distances.
-/

noncomputable section

namespace LocalFrame
open Real Vec3

def east (lon : ℝ) : Vec3 ℝ := ⟨-sin lon, cos lon, 0⟩

def north (lat lon : ℝ) : Vec3 ℝ := ⟨-sin lat * cos lon, -sin lat * sin lon, cos lat⟩

def up (lat lon : ℝ) : Vec3 ℝ := ⟨cos lat * cos lon, cos lat * sin lon, sin lat⟩

def toGlobal (lat lon : ℝ) (v : Vec3 ℝ) : Vec3 ℝ :=
  ⟨v.x * (east lon).x + v.y * (north lat lon).x + v.z * (up lat lon).x,
    v.x * (east lon).y + v.y * (north lat lon).y + v.z * (up lat lon).y,
    v.x * (east lon).z + v.y * (north lat lon).z + v.z * (up lat lon).z⟩

def toLocal (lat lon : ℝ) (d : Vec3 ℝ) : Vec3 ℝ :=
  ⟨dot (east lon) d, dot (north lat lon) d, dot (up lat lon) d⟩

theorem toLocal_toGlobal (lat lon : ℝ) (v : Vec3 ℝ) : toLocal lat lon (toGlobal lat lon v) = v := by
  have hlat := cos_sq_add_sin_sq lat
  have hlon := cos_sq_add_sin_sq lon
  ext
  · simp only [toLocal, toGlobal, dot, east, north, up]
    linear_combination v.x * hlon
  · simp only [toLocal, toGlobal, dot, east, north, up]
    linear_combination (v.y * sin lat ^ 2 - v.z * sin lat * cos lat) * hlon + v.y * hlat
  · simp only [toLocal, toGlobal, dot, east, north, up]
    linear_combination (v.z * cos lat ^ 2 - v.y * sin lat * cos lat) * hlon + v.z * hlat

theorem dot_toLocal (lat lon : ℝ) (d : Vec3 ℝ) :
    dot (toLocal lat lon d) (toLocal lat lon d) = dot d d := by
  have hlat := cos_sq_add_sin_sq lat
  have hlon := cos_sq_add_sin_sq lon
  simp only [toLocal, dot, east, north, up]
  linear_combination (d.x ^ 2 + d.y ^ 2) * hlon
    + ((d.x * cos lon + d.y * sin lon) ^ 2 + d.z ^ 2) * hlat

theorem toLocal_sub (lat lon : ℝ) (d e : Vec3 ℝ) :
    toLocal lat lon d - toLocal lat lon e = toLocal lat lon (d - e) := by
  ext <;> simp only [toLocal, dot, sub_x, sub_y, sub_z] <;> ring

end LocalFrame

end
