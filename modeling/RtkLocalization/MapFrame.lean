import RtkLocalization.Lib.LocalFrame
import RtkLocalization.Wgs84

/-!
# The map frame

What the conversions are for: a map origin fixes a rigid motion between the
map frame and ECEF (`mapToEcef`, `ecefToMap`). The bodies shared by the nodes,
`_map_to_wgs84` and `_fix_to_map` / `_navsat_to_map`, are this motion composed
with the geodetic conversions (`mapToWgs84_eq`, `navsatToMap_eq`).
-/

namespace RtkLocalization

section Model
variable {α : Type} [Add α] [Sub α] [Mul α] [Div α] [Neg α] [OfScientific α] [PyMath α]

def MapOrigin.ecef (origin : MapOrigin α) : Vec3 α :=
  wgs84ToEcef origin.latitude origin.longitude origin.altitude

/-- A map point in the map frame, with the east and north offsets the nodes
also return. -/
structure MapPoint (α : Type) where
  map : Vec3 α
  east : α
  north : α
  deriving DecidableEq, Repr

structure NavSatPoint (α : Type) where
  point : Geodetic α
  east : α
  north : α
  deriving DecidableEq, Repr

/-- Common body of `_fix_to_map` (`georeferenced_rtk_odometry.py`) and
`_navsat_to_map` (`navsat_point_to_map.py`). -/
def navsatToMap (origin : MapOrigin α) (latitude longitude altitude : α) : MapPoint α :=
  let ecef := wgs84ToEcef latitude longitude altitude
  let dx := ecef.x - origin.ecef.x
  let dy := ecef.y - origin.ecef.y
  let dz := ecef.z - origin.ecef.z
  let enu := ecefDeltaToEnu dx dy dz origin.latitude origin.longitude
  let yaw := origin.yawEnu
  let cosYaw := PyMath.cos yaw
  let sinYaw := PyMath.sin yaw
  let mapX := cosYaw * enu.x + sinYaw * enu.y
  let mapY := -sinYaw * enu.x + cosYaw * enu.y
  ⟨⟨mapX, mapY, enu.z⟩, enu.x, enu.y⟩

/-- Common body of the two `_map_to_wgs84` (`map_point_to_navsat.py`,
`simulated_start_pose.py`). -/
def mapToWgs84 [DecidableEq α] (origin : MapOrigin α) (mapX mapY mapZ : α) :
    Except PyError (NavSatPoint α) := do
  let yaw := origin.yawEnu
  let cosYaw := PyMath.cos yaw
  let sinYaw := PyMath.sin yaw
  let east := cosYaw * mapX - sinYaw * mapY
  let north := sinYaw * mapX + cosYaw * mapY
  let up := mapZ
  let d := enuDeltaToEcefDelta east north up origin.latitude origin.longitude
  let point ← ecefToWgs84 (origin.ecef.x + d.x) (origin.ecef.y + d.y) (origin.ecef.z + d.z)
  return ⟨point, east, north⟩

end Model

/-! ### The rigid motion -/

open Real Rotation LocalFrame

/-- ECEF position of a point of the map frame: rotate by the map yaw into east,
north and up, then place it at the origin. -/
noncomputable def mapToEcef (origin : MapOrigin ℝ) (m : Vec3 ℝ) : Vec3 ℝ :=
  origin.ecef + toGlobal (PyMath.radians origin.latitude) (PyMath.radians origin.longitude)
    (rotZ origin.yawEnu m)

noncomputable def ecefToMap (origin : MapOrigin ℝ) (P : Vec3 ℝ) : Vec3 ℝ :=
  rotZ (-origin.yawEnu)
    (toLocal (PyMath.radians origin.latitude) (PyMath.radians origin.longitude)
      (P - origin.ecef))

theorem ecefToMap_mapToEcef (origin : MapOrigin ℝ) (m : Vec3 ℝ) :
    ecefToMap origin (mapToEcef origin m) = m := by
  rw [ecefToMap, mapToEcef, Vec3.add_sub_cancel_left', toLocal_toGlobal, rotZ_neg_rotZ]

theorem distance_ecefToMap (origin : MapOrigin ℝ) (P Q : Vec3 ℝ) :
    Vec3.distance (ecefToMap origin P) (ecefToMap origin Q) = Vec3.distance P Q := by
  have hd : P - origin.ecef - (Q - origin.ecef) = P - Q := by
    ext <;> simp
  rw [Vec3.distance_eq_dot, Vec3.distance_eq_dot, ecefToMap, ecefToMap, rotZ_sub, dot_rotZ,
    toLocal_sub, dot_toLocal, hd]

/-! ### The code computes it -/

theorem navsatToMap_eq (origin : MapOrigin ℝ) (lat lon alt : ℝ) :
    (navsatToMap origin lat lon alt).map = ecefToMap origin (wgs84ToEcef lat lon alt) := by
  ext
  · simp only [navsatToMap, ecefToMap, ecefDeltaToEnu, rotZ, toLocal, Vec3.dot, east, north,
      cos_neg, sin_neg, cos_real, sin_real, Vec3.sub_x, Vec3.sub_y, Vec3.sub_z]
    ring
  · simp only [navsatToMap, ecefToMap, ecefDeltaToEnu, rotZ, toLocal, Vec3.dot, east, north,
      cos_neg, sin_neg, cos_real, sin_real, Vec3.sub_x, Vec3.sub_y, Vec3.sub_z]
    ring
  · simp only [navsatToMap, ecefToMap, ecefDeltaToEnu, rotZ, toLocal, Vec3.dot, up,
      cos_real, sin_real, Vec3.sub_x, Vec3.sub_y, Vec3.sub_z]

theorem enuDeltaToEcefDelta_eq (e n u lat lon : ℝ) :
    enuDeltaToEcefDelta e n u lat lon
      = toGlobal (PyMath.radians lat) (PyMath.radians lon) ⟨e, n, u⟩ := by
  ext
  · simp only [enuDeltaToEcefDelta, toGlobal, east, north, up, cos_real, sin_real]
    ring
  · simp only [enuDeltaToEcefDelta, toGlobal, east, north, up, cos_real, sin_real]
    ring
  · simp only [enuDeltaToEcefDelta, toGlobal, east, north, up, cos_real, sin_real]
    ring

theorem mapToWgs84_eq (origin : MapOrigin ℝ) (m : Vec3 ℝ) :
    mapToWgs84 origin m.x m.y m.z =
      (ecefToWgs84 (mapToEcef origin m).x (mapToEcef origin m).y (mapToEcef origin m).z).map
        fun g => ⟨g, (rotZ origin.yawEnu m).x, (rotZ origin.yawEnu m).y⟩ := by
  simp only [mapToWgs84, enuDeltaToEcefDelta_eq, cos_real, sin_real]
  rfl

end RtkLocalization
