import RtkLocalization.Lib.Ellipsoid
import RtkLocalization.PyMath

/-!
# WGS84, ECEF and ENU conversions

The conversion functions shared by `georeferenced_rtk_odometry.py`,
`map_point_to_navsat.py`, `navsat_point_to_map.py` and
`simulated_start_pose.py` (each script has its own copy, with the same body).
Over the reals `wgs84_to_ecef` is the parametrisation of the WGS84 ellipsoid
(`wgs84ToEcef_eq`) and `ecef_to_wgs84` one step of Bowring's formula
(`ecefToWgs84_eq`); `ecefToWgs84_roundTrip` bounds what the pair loses.
-/

namespace RtkLocalization

/-- Origin of the map: geodetic position of its zero point and yaw of its x
axis against east. -/
structure MapOrigin (α : Type) where
  latitude : α
  longitude : α
  altitude : α
  yawEnu : α
  deriving DecidableEq, Repr

structure Geodetic (α : Type) where
  latitude : α
  longitude : α
  altitude : α
  deriving DecidableEq, Repr

section Model
variable {α : Type} [OfScientific α]

def wgs84A : α := 6378137.0

def wgs84E2 : α := 6.6943799901413165e-3

variable [Add α] [Sub α] [Mul α] [Div α] [Neg α] [PyMath α]

def wgs84ToEcef (latitudeDeg longitudeDeg altitude : α) : Vec3 α :=
  let lat := PyMath.radians latitudeDeg
  let lon := PyMath.radians longitudeDeg
  let sinLat := PyMath.sin lat
  let cosLat := PyMath.cos lat
  let sinLon := PyMath.sin lon
  let cosLon := PyMath.cos lon
  let normal := wgs84A / PyMath.sqrt (1.0 - wgs84E2 * sinLat * sinLat)
  ⟨(normal + altitude) * cosLat * cosLon,
    (normal + altitude) * cosLat * sinLon,
    (normal * (1.0 - wgs84E2) + altitude) * sinLat⟩

/-- `ecef_to_wgs84`. Its last division raises on the polar axis, where
`math.cos(lat)` is zero. -/
def ecefToWgs84 [DecidableEq α] (x y z : α) : Except PyError (Geodetic α) :=
  let b := wgs84A * PyMath.sqrt (1.0 - wgs84E2)
  let ep2 := (wgs84A * wgs84A - b * b) / (b * b)
  let p := PyMath.hypot x y
  let theta := PyMath.atan2 (z * wgs84A) (p * b)
  let sinTheta := PyMath.sin theta
  let cosTheta := PyMath.cos theta
  let lon := PyMath.atan2 y x
  let lat := PyMath.atan2 (z + ep2 * b * sinTheta * sinTheta * sinTheta)
    (p - wgs84E2 * wgs84A * cosTheta * cosTheta * cosTheta)
  let sinLat := PyMath.sin lat
  let normal := wgs84A / PyMath.sqrt (1.0 - wgs84E2 * sinLat * sinLat)
  if PyMath.cos lat = 0.0 then .error .zeroDivisionError
  else
    let altitude := p / PyMath.cos lat - normal
    .ok ⟨PyMath.degrees lat, PyMath.degrees lon, altitude⟩

def ecefDeltaToEnu (dx dy dz originLatitudeDeg originLongitudeDeg : α) : Vec3 α :=
  let lat := PyMath.radians originLatitudeDeg
  let lon := PyMath.radians originLongitudeDeg
  let sinLat := PyMath.sin lat
  let cosLat := PyMath.cos lat
  let sinLon := PyMath.sin lon
  let cosLon := PyMath.cos lon
  ⟨-sinLon * dx + cosLon * dy,
    -sinLat * cosLon * dx - sinLat * sinLon * dy + cosLat * dz,
    cosLat * cosLon * dx + cosLat * sinLon * dy + sinLat * dz⟩

def enuDeltaToEcefDelta (east north up originLatitudeDeg originLongitudeDeg : α) : Vec3 α :=
  let lat := PyMath.radians originLatitudeDeg
  let lon := PyMath.radians originLongitudeDeg
  let sinLat := PyMath.sin lat
  let cosLat := PyMath.cos lat
  let sinLon := PyMath.sin lon
  let cosLon := PyMath.cos lon
  ⟨-sinLon * east - sinLat * cosLon * north + cosLat * cosLon * up,
    cosLon * east - sinLat * sinLon * north + cosLat * sinLon * up,
    cosLat * north + sinLat * up⟩

end Model

/-! ### The ellipsoid -/

open Real

theorem wgs84E2_nonneg : (0 : ℝ) ≤ wgs84E2 := by
  norm_num [wgs84E2]

noncomputable def wgs84 : Ellipsoid where
  a := wgs84A
  e2 := wgs84E2
  a_pos := by norm_num [wgs84A]
  e2_nonneg := wgs84E2_nonneg
  e2_lt_one := by norm_num [wgs84E2]

theorem wgs84ToEcef_eq (lat lon h : ℝ) :
    wgs84ToEcef lat lon h =
      ⟨wgs84.meridianP (PyMath.radians lat) h * cos (PyMath.radians lon),
        wgs84.meridianP (PyMath.radians lat) h * sin (PyMath.radians lon),
        wgs84.meridianZ (PyMath.radians lat) h⟩ := by
  simp only [wgs84ToEcef, one_literal, sin_real, cos_real, sqrt_real]
  rfl

/-- Away from the polar axis `ecef_to_wgs84` returns the longitude of the point
and one step of Bowring's formula for the rest. -/
theorem ecefToWgs84_eq (x y z : ℝ)
    (hc : cos (wgs84.bowringLatitude (Planar.hypot x y) z) ≠ 0) :
    ecefToWgs84 x y z =
      .ok ⟨PyMath.degrees (wgs84.bowringLatitude (Planar.hypot x y) z),
        PyMath.degrees (Planar.atan2 y x),
        wgs84.bowringAltitude (Planar.hypot x y) z⟩ := by
  have hbody : ecefToWgs84 x y z =
      if cos (wgs84.bowringLatitude (Planar.hypot x y) z) = 0 then .error .zeroDivisionError
      else .ok ⟨PyMath.degrees (wgs84.bowringLatitude (Planar.hypot x y) z),
        PyMath.degrees (Planar.atan2 y x), wgs84.bowringAltitude (Planar.hypot x y) z⟩ := by
    simp only [ecefToWgs84, one_literal, zero_literal]
    rfl
  rw [hbody]
  exact if_neg hc

/-! ### What the geodetic conversions lose -/

theorem cos_radians_pos {lat : ℝ} (h : |lat| < 90) : 0 < cos (PyMath.radians lat) := by
  obtain ⟨hlo, hhi⟩ := abs_lt.mp h
  have hpi := pi_pos
  apply cos_pos_of_mem_Ioo
  show lat * (π / 180) ∈ Set.Ioo (-(π / 2)) (π / 2)
  constructor <;> nlinarith

theorem wgs84_b_ge : 6350000 ≤ wgs84.b := by
  have hroot : (0.9956 : ℝ) ≤ √(1 - wgs84E2) := by
    refine le_sqrt_of_sq_le ?_
    norm_num [wgs84E2]
  have h : wgs84.b = wgs84A * √(1 - wgs84E2) := rfl
  have ha : (wgs84A : ℝ) = 6378137 := by norm_num [wgs84A]
  rw [h, ha]
  linarith

theorem wgs84_altitude_ok {h : ℝ} (hh : |h| ≤ 1000) : |h| < (1 - wgs84.e2) * wgs84.b := by
  have he : wgs84.e2 ≤ 0.0067 := by norm_num [wgs84, wgs84E2]
  nlinarith [wgs84_b_ge]

theorem wgs84_error_le {h : ℝ} (hh : |h| ≤ 1000) :
    wgs84.ep2 * wgs84.b * (wgs84.e2 * |h| / ((1 - wgs84.e2) * wgs84.b - |h|)) ≤ 0.1 := by
  have hb := wgs84_b_ge
  have he : wgs84.e2 ≤ 0.0067 := by norm_num [wgs84, wgs84E2]
  have ha : wgs84.a = 6378137 := by norm_num [wgs84, wgs84A]
  have hK : wgs84.ep2 * wgs84.b ≤ 43000 := by
    have h1 : wgs84.ep2 * wgs84.b * wgs84.b = wgs84.e2 * wgs84.a ^ 2 := by
      rw [← wgs84.ep2_mul_b_sq]
      ring
    rw [← mul_le_mul_iff_left₀ wgs84.b_pos, h1, ha]
    linarith
  have hX : wgs84.e2 * |h| / ((1 - wgs84.e2) * wgs84.b - |h|) ≤ 0.0000011 := by
    rw [div_le_iff₀ (sub_pos.mpr (wgs84_altitude_ok hh))]
    nlinarith [abs_nonneg h, wgs84.e2_nonneg]
  have hX0 : 0 ≤ wgs84.e2 * |h| / ((1 - wgs84.e2) * wgs84.b - |h|) :=
    div_nonneg (mul_nonneg wgs84.e2_nonneg (abs_nonneg h))
      (sub_pos.mpr (wgs84_altitude_ok hh)).le
  calc wgs84.ep2 * wgs84.b * (wgs84.e2 * |h| / ((1 - wgs84.e2) * wgs84.b - |h|))
      ≤ 43000 * 0.0000011 := mul_le_mul hK hX hX0 (by norm_num)
    _ ≤ 0.1 := by norm_num

/-- Going to geodetic coordinates and back keeps ECEF X and Y, and Z up to ten
centimetres for points within a kilometre of the ellipsoid. -/
theorem ecefToWgs84_roundTrip {lat h : ℝ} (lon : ℝ) (hlat : |lat| < 90) (hh : |h| ≤ 1000) :
    ∃ g, ecefToWgs84 (wgs84ToEcef lat lon h).x (wgs84ToEcef lat lon h).y
        (wgs84ToEcef lat lon h).z = .ok g ∧
      (wgs84ToEcef g.latitude g.longitude g.altitude).x = (wgs84ToEcef lat lon h).x ∧
      (wgs84ToEcef g.latitude g.longitude g.altitude).y = (wgs84ToEcef lat lon h).y ∧
      |(wgs84ToEcef g.latitude g.longitude g.altitude).z - (wgs84ToEcef lat lon h).z| ≤ 0.1 ∧
      (h = 0 → (wgs84ToEcef g.latitude g.longitude g.altitude).z = (wgs84ToEcef lat lon h).z) := by
  have hc := cos_radians_pos hlat
  have hb := wgs84_altitude_ok hh
  set p := wgs84.meridianP (PyMath.radians lat) h
  set z := wgs84.meridianZ (PyMath.radians lat) h
  set lon' := (PyMath.radians lon : ℝ)
  have hp : 0 < p := wgs84.meridianP_pos hc hb
  have hP : wgs84ToEcef lat lon h = ⟨p * cos lon', p * sin lon', z⟩ := wgs84ToEcef_eq lat lon h
  have hhyp : Planar.hypot (p * cos lon') (p * sin lon') = p := Planar.hypot_mul_cos_sin hp.le lon'
  have hX := Planar.hypot_mul_cos_atan2 (p * cos lon') (p * sin lon')
  have hY := Planar.hypot_mul_sin_atan2 (p * cos lon') (p * sin lon')
  rw [hhyp] at hX hY
  obtain ⟨hcos, hmp, -⟩ := wgs84.bowring_step hc hb
  have hbound := wgs84.bowring_bound hc hb
  rw [hP]
  refine ⟨_, ecefToWgs84_eq _ _ _ (by rw [hhyp]; exact hcos.ne'), ?_⟩
  rw [wgs84ToEcef_eq]
  simp only [radians_degrees, hhyp]
  refine ⟨?_, ?_, hbound.trans (wgs84_error_le hh), ?_⟩
  · rw [hmp]
    exact hX
  · rw [hmp]
    exact hY
  · intro h0
    have hzero : wgs84.e2 * |h| / ((1 - wgs84.e2) * wgs84.b - |h|) = 0 := by
      rw [h0, abs_zero, mul_zero, zero_div]
    rw [hzero, mul_zero] at hbound
    exact sub_eq_zero.mp (abs_nonpos_iff.mp hbound)

end RtkLocalization
