import RtkLocalization.Lib.Callback
import Mathlib.Algebra.Order.Floor.Ring
import Mathlib.Algebra.Order.Field.Basic

/-!
# `laserMapping.cpp`: `sync_packages`

The node collects scans and IMU samples in deques, and on a timer puts a scan together
with the IMU samples up to its end. A callback is one event, as is a call of the timer;
a scan comes as `p_pre->process` leaves it. Seconds are elements of an ordered field, a
deque is a list with its front at the head.
-/

namespace RtkLocalization
namespace LaserMapping

structure Point (K : Type) where
  x : K
  y : K
  z : K
  intensity : K
  curvature : K
  deriving DecidableEq

/-- `stamp` in nanoseconds, as `header.stamp`. -/
structure Imu (β : Type) where
  stamp : ℤ
  body : β
  deriving DecidableEq

structure MeasureGroup (K β : Type) where
  lidarBegTime : K
  lidarEndTime : K
  lidar : List (Point K)
  imu : List (Imu β)
  deriving DecidableEq

structure Config (K : Type) where
  timeSyncEn : Bool
  timeDiffLidarToImu : K

structure State (K β : Type) where
  lidarBuffer : List (List (Point K))
  timeBuffer : List K
  imuBuffer : List (Imu β)
  isFirstLidar : Bool
  lidarPushed : Bool
  timediffSetFlg : Bool
  timediffLidarWrtImu : K
  lastTimestampLidar : K
  lastTimestampImu : K
  lidarMeanScantime : K
  scanNum : ℕ
  meas : MeasureGroup K β

inductive Event (K β : Type) where
  | standardPcl (stamp : ℤ) (cloud : List (Point K))
  | livoxPcl (stamp : ℤ) (cloud : List (Point K))
  | imu (msg : Imu β)
  | timer

def nanoseconds : ℤ := 1000000000

section Program
variable {K β : Type} [Field K] [LinearOrder K]

def getTimeSec (stamp : ℤ) : K := stamp / (nanoseconds : K)

def getRosTime [FloorRing K] (timestamp : K) : ℤ :=
  ⌊timestamp⌋ * nanoseconds + ⌊(timestamp - ⌊timestamp⌋) * (nanoseconds : K)⌋

/-- `rclcpp::Time(x)` of a `double` is that number of nanoseconds, cut towards zero. -/
def timeOfDouble [FloorRing K] (x : K) : ℤ := if 0 ≤ x then ⌊x⌋ else ⌈x⌉

/-! ### Callbacks -/

/-- `cur_time < last_timestamp_lidar`; `time_buffer` is left as it is. -/
def lidarLoopsBack (s : State K β) (curTime : K) : Bool :=
  !s.isFirstLidar && decide (curTime < s.lastTimestampLidar)

def clearLoopBack (s : State K β) (curTime : K) : State K β :=
  { s with
    lidarBuffer := if lidarLoopsBack s curTime then [] else s.lidarBuffer
    isFirstLidar := false
    lastTimestampLidar := curTime }

def pushScan (s : State K β) (curTime : K) (cloud : List (Point K)) : State K β :=
  { s with
    lidarBuffer := s.lidarBuffer ++ [cloud]
    timeBuffer := s.timeBuffer ++ [curTime] }

def standardPclCbk (s : State K β) (stamp : ℤ) (cloud : List (Point K)) : State K β :=
  pushScan (clearLoopBack s (getTimeSec stamp)) (getTimeSec stamp) cloud

def selfSync (cfg : Config K) (s : State K β) : State K β :=
  if cfg.timeSyncEn && !s.timediffSetFlg &&
      decide (1 < |s.lastTimestampLidar - s.lastTimestampImu|) && !s.imuBuffer.isEmpty then
    { s with
      timediffSetFlg := true
      timediffLidarWrtImu := s.lastTimestampLidar + 0.1 - s.lastTimestampImu }
  else s

def livoxPclCbk (cfg : Config K) (s : State K β) (stamp : ℤ) (cloud : List (Point K)) :
    State K β :=
  pushScan (selfSync cfg (clearLoopBack s (getTimeSec stamp))) (getTimeSec stamp) cloud

/-- The message as `imu_cbk` stores it. -/
def restamped [FloorRing K] (cfg : Config K) (s : State K β) (msg : Imu β) : Imu β :=
  if decide (0.1 < |s.timediffLidarWrtImu|) && cfg.timeSyncEn then
    { msg with stamp := timeOfDouble (s.timediffLidarWrtImu + getTimeSec msg.stamp) }
  else
    { msg with stamp := getRosTime (getTimeSec msg.stamp - cfg.timeDiffLidarToImu) }

def imuCbk [FloorRing K] (cfg : Config K) (s : State K β) (msgIn : Imu β) : State K β :=
  let msg := restamped cfg s msgIn
  let timestamp : K := getTimeSec msg.stamp
  { s with
    imuBuffer := (if timestamp < s.lastTimestampImu then [] else s.imuBuffer) ++ [msg]
    lastTimestampImu := timestamp }

/-! ### `sync_packages` -/

/-- `curvature` is the time in the scan, in milliseconds. -/
def scanDuration (p : Point K) : K := p.curvature / 1000.0

/-- The first `if`: the scan at the front gets its end. -/
def pushLidar (s : State K β) : State K β :=
  match s.lidarBuffer, s.timeBuffer with
  | cloud :: _, begTime :: _ =>
    let late := begTime + s.lidarMeanScantime
    let (endTime, scanNum, mean) : K × ℕ × K :=
      match cloud.getLast? with
      | none => (late, s.scanNum, s.lidarMeanScantime)
      | some p =>
        if cloud.length ≤ 1 then (late, s.scanNum, s.lidarMeanScantime)
        else if scanDuration p < 0.5 * s.lidarMeanScantime then
          (late, s.scanNum, s.lidarMeanScantime)
        else
          (begTime + scanDuration p, s.scanNum + 1,
            s.lidarMeanScantime + (scanDuration p - s.lidarMeanScantime) / (s.scanNum + 1 : ℕ))
    { s with
      lidarPushed := true
      lidarMeanScantime := mean
      scanNum := scanNum
      meas := { s.meas with lidar := cloud, lidarBegTime := begTime, lidarEndTime := endTime } }
  | _, _ => s

/-- The loop over the IMU samples, with what it leaves; the time that it compares is that of
the sample before. -/
def takeImu (endTime : K) : K → List (Imu β) → List (Imu β) × List (Imu β)
  | _, [] => ([], [])
  | imuTime, msg :: rest =>
    if imuTime < endTime then
      if endTime < getTimeSec msg.stamp then ([], msg :: rest)
      else
        let (taken, left) := takeImu endTime (getTimeSec msg.stamp) rest
        (msg :: taken, left)
    else ([], msg :: rest)

def frontPushed (s : State K β) : State K β := if s.lidarPushed then s else pushLidar s

def popPackage (s : State K β) (imuTime : K) : State K β × Option (MeasureGroup K β) :=
  let (taken, left) := takeImu s.meas.lidarEndTime imuTime s.imuBuffer
  let meas := { s.meas with imu := taken }
  ({ s with
      meas := meas
      imuBuffer := left
      lidarBuffer := s.lidarBuffer.tail
      timeBuffer := s.timeBuffer.tail
      lidarPushed := false },
    some meas)

def syncPackages (s : State K β) : State K β × Option (MeasureGroup K β) :=
  match s.lidarBuffer, s.imuBuffer with
  | _ :: _, first :: _ =>
    if (frontPushed s).lastTimestampImu < (frontPushed s).meas.lidarEndTime then
      (frontPushed s, none)
    else popPackage (frontPushed s) (getTimeSec first.stamp)
  | _, _ => (s, none)

def step [FloorRing K] (cfg : Config K) : Callback.Step (State K β) (Event K β) (MeasureGroup K β)
  | s, .standardPcl stamp cloud => (standardPclCbk s stamp cloud, none)
  | s, .livoxPcl stamp cloud => (livoxPclCbk cfg s stamp cloud, none)
  | s, .imu msg => (imuCbk cfg s msg, none)
  | s, .timer => syncPackages s

def initial : State K β where
  lidarBuffer := []
  timeBuffer := []
  imuBuffer := []
  isFirstLidar := true
  lidarPushed := false
  timediffSetFlg := false
  timediffLidarWrtImu := 0
  lastTimestampLidar := 0
  lastTimestampImu := -1
  lidarMeanScantime := 0
  scanNum := 0
  meas := ⟨0, 0, [], []⟩

end Program
end LaserMapping
end RtkLocalization
