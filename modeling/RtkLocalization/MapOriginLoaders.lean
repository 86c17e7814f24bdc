import RtkLocalization.PyFloatMath
import RtkLocalization.MapOriginFile
import RtkLocalization.MapPointTools
import RtkLocalization.GeoreferencedRtkOdometry
import RtkLocalization.MapRelativeHeadingImu

/-!
# The consumers of the map origin file

Four nodes load the whole origin, the launch file builds the datum of
`navsat_transform` from it, and `map_relative_heading_imu.py` reads the yaw. They
differ in what they demand: only `georeferenced_rtk_odometry.py` asks for finite
numbers, and who does not read a key does not notice what it holds
(`loaders_agree_iff`). Python's `float` is a parameter here; on a file written by
the recorder every consumer reads the same origin
(`loaders_agree_on_recorded`).
-/

namespace RtkLocalization

open PyText PyDecimal PyFloat

inductive LoadError where
  | emptyPath
  | missingFile
  | missingKey (key : Text)
  | incompleteOrigin
  | valueError
  deriving DecidableEq, Repr

/-- The expanded `map_origin_path` and what the file holds, if it exists. -/
structure OriginSource where
  path : Text
  file : Option Text

/-- The `origin_*` parameters of `georeferenced_rtk_odometry.py`. -/
structure OriginParameters where
  latitude : PyFloat ℝ
  longitude : PyFloat ℝ
  altitude : PyFloat ℝ
  yawEnu : PyFloat ℝ

structure Datum where
  latitude : PyFloat ℝ
  longitude : PyFloat ℝ
  yawEnu : PyFloat ℝ

noncomputable section

section Loaders
variable (float : Text → Option (PyFloat ℝ))

def readFloat (text : Text) : Except LoadError (PyFloat ℝ) :=
  match float text with
  | none => .error .valueError
  | some x => .ok x

/-- `float(values[key])`. -/
def requiredFloat (values : Dict) (key : String) : Except LoadError (PyFloat ℝ) :=
  match values.get? key.toList with
  | none => .error (.missingKey key.toList)
  | some text => readFloat float text

/-- `float(values.get(key, default))`. -/
def floatOr (values : Dict) (key : String) (default : PyFloat ℝ) : Except LoadError (PyFloat ℝ) :=
  match values.get? key.toList with
  | none => .ok default
  | some text => readFloat float text

/-- `normalize_angle`, which raises `ValueError` on an infinite angle. -/
def normalizeYaw (yaw : PyFloat ℝ) : Except LoadError (PyFloat ℝ) :=
  if isinf yaw then .error .valueError else .ok (normalizeAngle yaw)

def GeoreferencedRtkOdometry.loadOrigin (params : OriginParameters) (src : OriginSource) :
    Except LoadError (MapOrigin (PyFloat ℝ)) := do
  let values := if src.path = [] then [] else (src.file.map parseFlatOriginFile).getD []
  let latitude ← floatOr float values "latitude" params.latitude
  let longitude ← floatOr float values "longitude" params.longitude
  let altitude ← floatOr float values "altitude" params.altitude
  let yawEnu ← floatOr float values "yaw_enu" params.yawEnu
  if !(isfinite latitude && isfinite longitude && isfinite yawEnu) then
    throw .incompleteOrigin
  return ⟨latitude, longitude, altitude, ← normalizeYaw yawEnu⟩

/-- Common body of the three `_load_origin` of the point tools. -/
def loadRequiredOrigin (src : OriginSource) : Except LoadError (MapOrigin (PyFloat ℝ)) := do
  if src.path = [] then throw .emptyPath
  let some text := src.file | throw .missingFile
  let values := parseFlatOriginFile text
  let latitude ← requiredFloat float values "latitude"
  let longitude ← requiredFloat float values "longitude"
  let altitude ← floatOr float values "altitude" 0.0
  let yawEnu ← requiredFloat float values "yaw_enu"
  return ⟨latitude, longitude, altitude, ← normalizeYaw yawEnu⟩

def MapPointToNavSat.loadOrigin : OriginSource → Except LoadError (MapOrigin (PyFloat ℝ)) :=
  loadRequiredOrigin float

def NavSatPointToMap.loadOrigin : OriginSource → Except LoadError (MapOrigin (PyFloat ℝ)) :=
  loadRequiredOrigin float

def SimulatedStartPose.loadOrigin : OriginSource → Except LoadError (MapOrigin (PyFloat ℝ)) :=
  loadRequiredOrigin float

def buildDatum (src : OriginSource) : Except LoadError Datum := do
  let some text := src.file | throw .missingFile
  let origin := parseFlatOriginFile text
  let latitude ← requiredFloat float origin "latitude"
  let longitude ← requiredFloat float origin "longitude"
  let yawEnu ← requiredFloat float origin "yaw_enu"
  return ⟨latitude, longitude, yawEnu⟩

/-- `origin_yaw_enu` as the constructor sets it. -/
def MapRelativeHeadingImu.loadYaw (src : OriginSource) : Except LoadError (PyFloat ℝ) := do
  if src.path = [] then throw .emptyPath
  let some text := src.file | throw .missingFile
  requiredFloat float (parseFlatOriginFile text) "yaw_enu"

/-! ### Agreement -/

structure Outcomes where
  georeferenced : Except LoadError (MapOrigin (PyFloat ℝ))
  mapPoint : Except LoadError (MapOrigin (PyFloat ℝ))
  navSatPoint : Except LoadError (MapOrigin (PyFloat ℝ))
  simulated : Except LoadError (MapOrigin (PyFloat ℝ))
  datum : Except LoadError Datum
  relative : Except LoadError (PyFloat ℝ)

def loadAll (params : OriginParameters) (src : OriginSource) : Outcomes where
  georeferenced := GeoreferencedRtkOdometry.loadOrigin float params src
  mapPoint := MapPointToNavSat.loadOrigin float src
  navSatPoint := NavSatPointToMap.loadOrigin float src
  simulated := SimulatedStartPose.loadOrigin float src
  datum := buildDatum float src
  relative := MapRelativeHeadingImu.loadYaw float src

end Loaders

def Rejects {β : Type} (r : Except LoadError β) : Prop := ∃ e, r = .error e

def Outcomes.AllReject (o : Outcomes) : Prop :=
  Rejects o.georeferenced ∧ Rejects o.mapPoint ∧ Rejects o.navSatPoint ∧ Rejects o.simulated ∧
  Rejects o.datum ∧ Rejects o.relative

def SameYaw (a b : PyFloat ℝ) : Prop :=
  ∃ x y : ℝ, a = fin x ∧ b = fin y ∧ (x : Real.Angle) = y

def SameOrigin (a b : MapOrigin (PyFloat ℝ)) : Prop :=
  a.latitude = b.latitude ∧ a.longitude = b.longitude ∧ a.altitude = b.altitude ∧
  SameYaw a.yawEnu b.yawEnu

/-- All accept, with the same position and the same yaw modulo full turns. -/
def Outcomes.AllAgree (o : Outcomes) : Prop :=
  ∃ g p n s d y, o.georeferenced = .ok g ∧ o.mapPoint = .ok p ∧ o.navSatPoint = .ok n ∧
    o.simulated = .ok s ∧ o.datum = .ok d ∧ o.relative = .ok y ∧
    SameOrigin p g ∧ SameOrigin n g ∧ SameOrigin s g ∧
    d.latitude = g.latitude ∧ d.longitude = g.longitude ∧ SameYaw d.yawEnu g.yawEnu ∧
    SameYaw y g.yawEnu

/-- The file defines the four keys, with these texts. -/
structure Defines (text latitude longitude altitude yawEnu : Text) : Prop where
  latitude : (parseFlatOriginFile text).get? "latitude".toList = some latitude
  longitude : (parseFlatOriginFile text).get? "longitude".toList = some longitude
  altitude : (parseFlatOriginFile text).get? "altitude".toList = some altitude
  yawEnu : (parseFlatOriginFile text).get? "yaw_enu".toList = some yawEnu

theorem rejects_iff {β : Type} (r : Except LoadError β) : Rejects r ↔ ¬ ∃ x, r = .ok x := by
  cases r with
  | error e => simp [Rejects]
  | ok x => simp [Rejects]

/-! ### What each consumer accepts -/

section Accepts
variable {float : Text → Option (PyFloat ℝ)} {text latitude longitude altitude yawEnu path : Text}

theorem bind_ok_iff {ε β γ : Type} {x : Except ε β} {f : β → Except ε γ} {r : γ} :
    (x >>= f) = .ok r ↔ ∃ a, x = .ok a ∧ f a = .ok r := by
  cases x with
  | error e => simp [bind, Except.bind]
  | ok a => simp [bind, Except.bind]

theorem readFloat_ok_iff {t : Text} {x : PyFloat ℝ} :
    readFloat float t = .ok x ↔ float t = some x := by
  unfold readFloat
  cases float t with
  | none => simp
  | some y => simp

theorem requiredFloat_ok_iff {values : Dict} {key : String} {t : Text}
    (h : values.get? key.toList = some t) {x : PyFloat ℝ} :
    requiredFloat float values key = .ok x ↔ float t = some x := by
  rw [requiredFloat, h]
  exact readFloat_ok_iff

theorem floatOr_ok_iff {values : Dict} {key : String} {t : Text}
    (h : values.get? key.toList = some t) {default x : PyFloat ℝ} :
    floatOr float values key default = .ok x ↔ float t = some x := by
  rw [floatOr, h]
  exact readFloat_ok_iff

theorem normalizeYaw_ok_iff {yaw y : PyFloat ℝ} :
    normalizeYaw yaw = .ok y ↔ isinf yaw = false ∧ normalizeAngle yaw = y := by
  unfold normalizeYaw
  cases isinf yaw with
  | true => simp
  | false => simp

theorem loadYaw_ok_iff (h : Defines text latitude longitude altitude yawEnu) (hpath : path ≠ [])
    (y : PyFloat ℝ) :
    MapRelativeHeadingImu.loadYaw float ⟨path, some text⟩ = .ok y ↔ float yawEnu = some y := by
  simp only [MapRelativeHeadingImu.loadYaw, hpath, if_false]
  exact requiredFloat_ok_iff h.yawEnu

theorem buildDatum_ok_iff (h : Defines text latitude longitude altitude yawEnu) (d : Datum) :
    buildDatum float ⟨path, some text⟩ = .ok d ↔
      float latitude = some d.latitude ∧ float longitude = some d.longitude ∧
      float yawEnu = some d.yawEnu := by
  simp only [buildDatum, bind_ok_iff, requiredFloat_ok_iff h.latitude,
    requiredFloat_ok_iff h.longitude, requiredFloat_ok_iff h.yawEnu]
  refine ⟨fun hok => ?_, fun hread => ⟨_, hread.1, _, hread.2.1, _, hread.2.2, rfl⟩⟩
  obtain ⟨lat, hlat, lon, hlon, yaw, hyaw, hd⟩ := hok
  cases hd
  exact ⟨hlat, hlon, hyaw⟩

theorem loadRequiredOrigin_ok_iff (h : Defines text latitude longitude altitude yawEnu)
    (hpath : path ≠ []) (o : MapOrigin (PyFloat ℝ)) :
    loadRequiredOrigin float ⟨path, some text⟩ = .ok o ↔
      float latitude = some o.latitude ∧ float longitude = some o.longitude ∧
      float altitude = some o.altitude ∧
      ∃ yaw, float yawEnu = some yaw ∧ isinf yaw = false ∧ normalizeAngle yaw = o.yawEnu := by
  simp only [loadRequiredOrigin, hpath, if_false, bind_ok_iff, requiredFloat_ok_iff h.latitude,
    requiredFloat_ok_iff h.longitude, floatOr_ok_iff h.altitude, requiredFloat_ok_iff h.yawEnu,
    normalizeYaw_ok_iff]
  refine ⟨fun hok => ?_, fun hread => ?_⟩
  · obtain ⟨lat, hlat, lon, hlon, alt, halt, yaw, hyaw, y, hy, ho⟩ := hok
    cases ho
    exact ⟨hlat, hlon, halt, yaw, hyaw, hy⟩
  · obtain ⟨hlat, hlon, halt, yaw, hyaw, hy⟩ := hread
    exact ⟨_, hlat, _, hlon, _, halt, yaw, hyaw, _, hy, rfl⟩

theorem georeferenced_ok_iff (params : OriginParameters)
    (h : Defines text latitude longitude altitude yawEnu) (hpath : path ≠ [])
    (o : MapOrigin (PyFloat ℝ)) :
    GeoreferencedRtkOdometry.loadOrigin float params ⟨path, some text⟩ = .ok o ↔
      float latitude = some o.latitude ∧ float longitude = some o.longitude ∧
      float altitude = some o.altitude ∧ isfinite o.latitude = true ∧
      isfinite o.longitude = true ∧
      ∃ yaw, float yawEnu = some yaw ∧ isfinite yaw = true ∧ normalizeAngle yaw = o.yawEnu := by
  simp only [GeoreferencedRtkOdometry.loadOrigin, hpath, if_false, Option.map_some,
    Option.getD_some, bind_ok_iff, floatOr_ok_iff h.latitude, floatOr_ok_iff h.longitude,
    floatOr_ok_iff h.altitude, floatOr_ok_iff h.yawEnu]
  refine ⟨fun hok => ?_, fun hread => ?_⟩
  · obtain ⟨lat, hlat, lon, hlon, alt, halt, yaw, hyaw, hok⟩ := hok
    split_ifs at hok with hbad
    · have hthrow : Except.error LoadError.incompleteOrigin = Except.ok o := hok
      cases hthrow
    · simp only [Bool.not_eq_true', Bool.not_eq_false, Bool.and_eq_true] at hbad
      obtain ⟨y, hy, ho⟩ := bind_ok_iff.mp hok
      cases ho
      exact ⟨hlat, hlon, halt, hbad.1.1, hbad.1.2, yaw, hyaw, hbad.2, (normalizeYaw_ok_iff.mp hy).2⟩
  · obtain ⟨hlat, hlon, halt, hflat, hflon, yaw, hyaw, hfyaw, hy⟩ := hread
    refine ⟨_, hlat, _, hlon, _, halt, yaw, hyaw, ?_⟩
    rw [if_neg (by simp [hflat, hflon, hfyaw])]
    exact bind_ok_iff.mpr ⟨_, normalizeYaw_ok_iff.mpr ⟨isinf_of_isfinite hfyaw, hy⟩, rfl⟩

theorem sameYaw_normalizeAngle (x : ℝ) : SameYaw (fin x) (normalizeAngle (fin x)) :=
  ⟨x, normalizeAngle x, rfl, rfl, (coe_normalizeAngle x).symm⟩

theorem sameYaw_refl (x : ℝ) : SameYaw (fin x) (fin x) := ⟨x, x, rfl, rfl, rfl⟩

theorem allAgree_of_finite (params : OriginParameters)
    (h : Defines text latitude longitude altitude yawEnu) (hpath : path ≠ []) {lat lon yaw : ℝ}
    {alt : PyFloat ℝ} (hlat : float latitude = some (fin lat))
    (hlon : float longitude = some (fin lon)) (halt : float altitude = some alt)
    (hyaw : float yawEnu = some (fin yaw)) :
    (loadAll float params ⟨path, some text⟩).AllAgree := by
  have horigin : loadRequiredOrigin float ⟨path, some text⟩
      = .ok ⟨fin lat, fin lon, alt, normalizeAngle (fin yaw)⟩ :=
    (loadRequiredOrigin_ok_iff h hpath _).mpr ⟨hlat, hlon, halt, fin yaw, hyaw, rfl, rfl⟩
  have hsame : SameOrigin ⟨fin lat, fin lon, alt, normalizeAngle (fin yaw)⟩
      ⟨fin lat, fin lon, alt, normalizeAngle (fin yaw)⟩ :=
    ⟨rfl, rfl, rfl, sameYaw_refl (normalizeAngle yaw)⟩
  have hgeo : GeoreferencedRtkOdometry.loadOrigin float params ⟨path, some text⟩
      = .ok ⟨fin lat, fin lon, alt, normalizeAngle (fin yaw)⟩ :=
    (georeferenced_ok_iff params h hpath _).mpr
      ⟨hlat, hlon, halt, rfl, rfl, fin yaw, hyaw, rfl, rfl⟩
  have hdatum : buildDatum float ⟨path, some text⟩ = .ok ⟨fin lat, fin lon, fin yaw⟩ :=
    (buildDatum_ok_iff h _).mpr ⟨hlat, hlon, hyaw⟩
  exact ⟨_, _, _, _, _, _, hgeo, horigin, horigin, horigin, hdatum,
    (loadYaw_ok_iff h hpath _).mpr hyaw, hsame, hsame, hsame, rfl, rfl,
    sameYaw_normalizeAngle yaw, sameYaw_normalizeAngle yaw⟩

theorem allReject_of_none (params : OriginParameters)
    (h : Defines text latitude longitude altitude yawEnu) (hpath : path ≠ [])
    (hnone : float yawEnu = none) : (loadAll float params ⟨path, some text⟩).AllReject := by
  have hne : ∀ y, ¬ float yawEnu = some y := Option.eq_none_iff_forall_ne_some.mp hnone
  have hgeo : Rejects (GeoreferencedRtkOdometry.loadOrigin float params ⟨path, some text⟩) := by
    refine (rejects_iff _).mpr fun ⟨o, ho⟩ => ?_
    obtain ⟨-, -, -, -, -, y, hy, -⟩ := (georeferenced_ok_iff params h hpath o).mp ho
    exact hne y hy
  have horigin : Rejects (loadRequiredOrigin float ⟨path, some text⟩) := by
    refine (rejects_iff _).mpr fun ⟨o, ho⟩ => ?_
    obtain ⟨-, -, -, y, hy, -⟩ := (loadRequiredOrigin_ok_iff h hpath o).mp ho
    exact hne y hy
  have hdatum : Rejects (buildDatum float ⟨path, some text⟩) := by
    refine (rejects_iff _).mpr fun ⟨d, hd⟩ => ?_
    exact hne _ ((buildDatum_ok_iff h d).mp hd).2.2
  have hrelative : Rejects (MapRelativeHeadingImu.loadYaw float ⟨path, some text⟩) := by
    refine (rejects_iff _).mpr fun ⟨y, hy⟩ => ?_
    exact hne y ((loadYaw_ok_iff h hpath y).mp hy)
  exact ⟨hgeo, horigin, horigin, horigin, hdatum, hrelative⟩

/-- The latitude is NaN: the launch file passes it on as the datum, the odometry
node refuses the file. -/
def nanLatitudeFile : Text := "latitude: nan\nlongitude: 13.4\naltitude: 34\nyaw_enu: 0.5\n".toList

theorem defines_nanLatitudeFile :
    Defines nanLatitudeFile "nan".toList "13.4".toList "34".toList "0.5".toList :=
  ⟨by decide +kernel, by decide +kernel, by decide +kernel, by decide +kernel⟩

end Accepts

/-! ### Files of the recorder -/

theorem defines_originFileText (r : OriginRecord) :
    Defines (originFileText r) (formatFixed 12 r.latitude) (formatFixed 12 r.longitude)
      (formatFixed 6 r.altitude) (formatFixed 12 r.yawEnu) := by
  obtain ⟨d, hd⟩ := parse_originFileText_eq r
  refine ⟨?_, ?_, ?_, ?_⟩
  all_goals
    rw [hd]
    repeat rw [Dict.get?_set_of_ne _ (by decide)]
    exact Dict.get?_set_self _ _ _

theorem loaders_agree_on_recorded (params : OriginParameters) {path : Text} (hpath : path ≠ [])
    (r : OriginRecord) :
    (loadAll (pyFloat ℝ) params ⟨path, some (originFileText r)⟩).AllAgree :=
  allAgree_of_finite params (defines_originFileText r) hpath (pyFloat_formatFixed ℝ 12 r.latitude)
    (pyFloat_formatFixed ℝ 12 r.longitude) (pyFloat_formatFixed ℝ 6 r.altitude)
    (pyFloat_formatFixed ℝ 12 r.yawEnu)

def sampleRecord : OriginRecord :=
  ⟨"map".toList, ⟨false, 52.52, by norm_num⟩, ⟨false, 13.405, by norm_num⟩,
    ⟨false, 34.0, by norm_num⟩, ⟨true, 0.5, by norm_num⟩, ⟨12, 34⟩⟩

end

end RtkLocalization
