import RtkLocalization.MapFrame

/-!
# The map / WGS84 checking tools

`MapPointToNavSat` (`map_point_to_navsat.py`) and `SimulatedStartPose`
(`simulated_start_pose.py`) turn map points into WGS84, `NavSatPointToMap`
(`navsat_point_to_map.py`) turns WGS84 points into map coordinates. They are
meant to be inverse to each other; `navsatToMap_mapToWgs84` says how closely
they are.
-/

namespace RtkLocalization

section Model
variable {α : Type} [Add α] [Sub α] [Mul α] [Div α] [Neg α] [OfScientific α] [PyMath α]

/-- State of the `map_point_to_navsat` node that its conversion reads. -/
structure MapPointToNavSat (α : Type) where
  origin : MapOrigin α

def MapPointToNavSat.mapToWgs84 [DecidableEq α] (node : MapPointToNavSat α) (mapX mapY mapZ : α) :
    Except PyError (NavSatPoint α) :=
  RtkLocalization.mapToWgs84 node.origin mapX mapY mapZ

/-- State of the `simulated_start_pose` node that its conversion reads. -/
structure SimulatedStartPose (α : Type) where
  origin : MapOrigin α
  mapX : α
  mapY : α
  mapZ : α

def SimulatedStartPose.mapToWgs84 [DecidableEq α] (node : SimulatedStartPose α) :
    Except PyError (NavSatPoint α) :=
  RtkLocalization.mapToWgs84 node.origin node.mapX node.mapY node.mapZ

/-- State of the `navsat_point_to_map` node that its conversion reads. -/
structure NavSatPointToMap (α : Type) where
  origin : MapOrigin α

def NavSatPointToMap.navsatToMap (node : NavSatPointToMap α) (latitude longitude altitude : α) :
    MapPoint α :=
  RtkLocalization.navsatToMap node.origin latitude longitude altitude

end Model

theorem Vec3.distance_of_xy_eq {P Q : Vec3 ℝ} (hx : P.x = Q.x) (hy : P.y = Q.y) :
    Vec3.distance P Q = |P.z - Q.z| := by
  rw [Vec3.distance, hx, hy]
  simp only [sub_self, mul_zero, zero_add]
  exact Real.sqrt_mul_self_eq_abs _

/-- A map point sent to WGS84 by either tool and read back for the same origin:
ECEF X and Y survive, so the error is along the Earth axis; it is at most ten
centimetres within a kilometre of the ellipsoid and zero on it. -/
theorem navsatToMap_mapToWgs84 (origin : MapOrigin ℝ) (m : Vec3 ℝ) (lat lon h : ℝ)
    (hlat : |lat| < 90) (hh : |h| ≤ 1000) (hm : mapToEcef origin m = wgs84ToEcef lat lon h) :
    ∃ g : NavSatPoint ℝ,
      (MapPointToNavSat.mk origin).mapToWgs84 m.x m.y m.z = .ok g ∧
      (SimulatedStartPose.mk origin m.x m.y m.z).mapToWgs84 = .ok g ∧
      (wgs84ToEcef g.point.latitude g.point.longitude g.point.altitude).x
        = (mapToEcef origin m).x ∧
      (wgs84ToEcef g.point.latitude g.point.longitude g.point.altitude).y
        = (mapToEcef origin m).y ∧
      Vec3.distance ((NavSatPointToMap.mk origin).navsatToMap g.point.latitude g.point.longitude
        g.point.altitude).map m ≤ 0.1 ∧
      (h = 0 → ((NavSatPointToMap.mk origin).navsatToMap g.point.latitude g.point.longitude
        g.point.altitude).map = m) := by
  obtain ⟨g, hg, hx, hy, hz, hzero⟩ := ecefToWgs84_roundTrip lon hlat hh
  rw [← hm] at hg hx hy hz hzero
  set P := wgs84ToEcef g.latitude g.longitude g.altitude
  have hcode : RtkLocalization.mapToWgs84 origin m.x m.y m.z
      = .ok ⟨g, (Rotation.rotZ origin.yawEnu m).x, (Rotation.rotZ origin.yawEnu m).y⟩ := by
    rw [mapToWgs84_eq, hg]
    rfl
  have hback : (navsatToMap origin g.latitude g.longitude g.altitude).map = ecefToMap origin P :=
    navsatToMap_eq origin _ _ _
  refine ⟨_, hcode, hcode, hx, hy, ?_, ?_⟩
  · calc Vec3.distance (navsatToMap origin g.latitude g.longitude g.altitude).map m
        = Vec3.distance (ecefToMap origin P) (ecefToMap origin (mapToEcef origin m)) := by
          rw [hback, ecefToMap_mapToEcef]
      _ = |P.z - (mapToEcef origin m).z| := by
          rw [distance_ecefToMap, Vec3.distance_of_xy_eq hx hy]
      _ ≤ 0.1 := hz
  · intro h0
    have hP : P = mapToEcef origin m := Vec3.ext hx hy (hzero h0)
    show (navsatToMap origin g.latitude g.longitude g.altitude).map = m
    rw [hback, hP, ecefToMap_mapToEcef]

theorem navsatToMap_mapToWgs84_above_origin :
    mapToEcef ⟨0, 0, 0, 0⟩ ⟨0, 0, 500⟩ = wgs84ToEcef 0 0 500 ∧
    ∃ g : NavSatPoint ℝ, (MapPointToNavSat.mk ⟨0, 0, 0, 0⟩).mapToWgs84 0 0 500 = .ok g ∧
      Vec3.distance ((NavSatPointToMap.mk ⟨0, 0, 0, 0⟩).navsatToMap g.point.latitude
        g.point.longitude g.point.altitude).map ⟨0, 0, 500⟩ ≤ 0.1 := by
  have hrad : (PyMath.radians 0 : ℝ) = 0 := zero_mul _
  have hm : mapToEcef ⟨0, 0, 0, 0⟩ ⟨0, 0, 500⟩ = wgs84ToEcef 0 0 500 := by
    ext <;> simp [mapToEcef, MapOrigin.ecef, wgs84ToEcef, hrad, LocalFrame.toGlobal,
      LocalFrame.east, LocalFrame.north, LocalFrame.up, Rotation.rotZ]
  obtain ⟨g, hg, -, -, -, hd, -⟩ := navsatToMap_mapToWgs84 ⟨0, 0, 0, 0⟩ ⟨0, 0, 500⟩ 0 0 500
    (by norm_num) (by norm_num) hm
  exact ⟨hm, g, hg, hd⟩

end RtkLocalization
