import RtkLocalization.FilterBase
import RtkLocalization.Lib.Callback
import RtkLocalization.Lib.TimedQueue
import Mathlib.Data.List.DropRight
import Mathlib.Logic.Function.Basic

/-!
# `ros_filter.cpp`

The node around the filter: the sensor callbacks put measurements into a priority
queue, and `periodicUpdate` hands over to the filter what is due. With
`smooth_lagged_data` it keeps its past states and the measurements between them, so
that a late measurement can be handled in its place. A callback is one event; what
`preparePose` and its siblings make of a message is part of the event (absent where
they refuse it), and so are the readings of the clock.

Both deques are lists with their back at the head.
-/

namespace RtkLocalization
namespace RosFilter

open FilterBase TimedQueue

structure Config (κ : Type) where
  smoothLaggedData : Bool
  historyLength : ℕ
  predictToCurrentTime : Bool
  useControl : Bool
  sensorTimeout : ℤ
  permitCorrectedPublication : Bool
  initialEstimate : κ

structure FilterState (κ : Type) where
  estimate : κ
  lastMeasurementTime : ℤ

structure State (T κ β γ Q : Type) where
  filter : Filter κ γ
  measurementQueue : Q
  filterStateHistory : List (FilterState κ)
  measurementHistory : List (Measurement β γ)
  latestControl : γ × ℤ
  lastMessageTimes : T → Option ℤ
  lastSetPoseTime : ℤ
  lastPublishedStamp : ℤ
  enabled : Bool
  toggledOn : Bool

/-- `enable` is the service and `on_activate`. `update` has the time `periodicUpdate`
starts with and the later reading that it takes where processing is off. -/
inductive Event (T κ β γ : Type) where
  | sensor (topic : T) (stamp : ℤ) (body : Option β)
  | control (control : γ) (stamp : ℤ)
  | setPose (stamp : ℤ) (estimate : κ) (now : ℤ)
  | reset
  | toggle (on : Bool)
  | enable
  | deactivate
  | update (curTime now : ℤ)

/-- The odometry message: its stamp, and the state and covariance it is filled from. -/
structure Estimate (κ : Type) where
  stamp : ℤ
  estimate : κ

abbrev MeasurementQueue (β γ Q : Type) := Queue Q (Measurement.time : Measurement β γ → ℤ)

variable {T κ β γ Q : Type}

/-! ### Callbacks -/

section Callbacks
variable [DecidableEq T]

/-- `poseCallback`, `twistCallback` and `accelerationCallback`. -/
def sensorCallback (P : MeasurementQueue β γ Q) (s : State T κ β γ Q) (topic : T) (stamp : ℤ)
    (body : Option β) : State T κ β γ Q :=
  if ¬ s.enabled then s
  else if stamp ≤ s.lastSetPoseTime then s
  else if (s.lastMessageTimes topic).getD stamp ≤ stamp then
    { s with
      measurementQueue :=
        match body with
        | some b => P.push ⟨stamp, b, s.latestControl⟩ s.measurementQueue
        | none => s.measurementQueue
      lastMessageTimes := Function.update s.lastMessageTimes topic (some stamp) }
  else s

/-- For a command in the body frame. -/
def controlStampedCallback (s : State T κ β γ Q) (control : γ) (stamp : ℤ) : State T κ β γ Q :=
  { s with
    latestControl := (control, stamp)
    filter := { s.filter with control := (control, stamp) } }

def setPoseCallback (P : MeasurementQueue β γ Q) (s : State T κ β γ Q) (stamp : ℤ) (estimate : κ)
    (now : ℤ) : State T κ β γ Q :=
  { s with
    measurementQueue := P.empty
    filterStateHistory := []
    measurementHistory := []
    lastSetPoseTime := stamp
    filter := { s.filter with estimate := estimate, lastMeasurementTime := now } }

def reset (cfg : Config κ) (P : MeasurementQueue β γ Q) (s : State T κ β γ Q) :
    State T κ β γ Q :=
  { s with
    measurementQueue := P.empty
    filterStateHistory := []
    measurementHistory := []
    latestControl := (s.latestControl.1, 0)
    lastMessageTimes := fun _ => none
    lastSetPoseTime := 0
    lastPublishedStamp := 0
    filter :=
      { s.filter with
        initialized := false
        estimate := cfg.initialEstimate
        lastMeasurementTime := 0 } }

end Callbacks

/-! ### `integrateMeasurements` -/

/-- The state to go back to: the last one not after `time`, else the oldest. -/
def reversionState (history : List (FilterState κ)) (time : ℤ) : Option (FilterState κ) :=
  match history.dropWhile fun st => time < st.lastMeasurementTime with
  | st :: _ => some st
  | [] => history.getLast?

def revertTo (P : MeasurementQueue β γ Q) (s : State T κ β γ Q) (time : ℤ) : State T κ β γ Q :=
  let kept := s.filterStateHistory.dropWhile fun st => time < st.lastMeasurementTime
  match reversionState s.filterStateHistory time with
  | none => { s with filterStateHistory := kept }
  | some st =>
    let popped := s.measurementHistory.takeWhile fun m => time < m.time
    { s with
      filterStateHistory := kept
      filter :=
        { s.filter with
          estimate := st.estimate
          lastMeasurementTime := st.lastMeasurementTime }
      measurementHistory := s.measurementHistory.dropWhile fun m => time < m.time
      measurementQueue :=
        (popped.filter fun m => st.lastMeasurementTime ≤ m.time).foldl
          (fun q m => P.push m q) s.measurementQueue }

/-- Whether the next measurement has another time than the filter. -/
def lastOfItsTime (P : MeasurementQueue β γ Q) (rest : Q) (time : ℤ) : Bool :=
  match P.pop rest with
  | none => true
  | some (next, _) => next.time ≠ time

/-- Whether the control that came with a measurement is put back: `restored` is
`restored_measurement_count`. -/
def fromHistory (cfg : Config κ) (restored : ℕ) : Bool := cfg.useControl && decide (0 < restored)

/-- The filter that a measurement is handed to. -/
def controlled (cfg : Config κ) (f : Filter κ γ) (restored : ℕ) (m : Measurement β γ) :
    Filter κ γ :=
  if fromHistory cfg restored then { f with control := m.latestControl } else f

/-- One turn of the loop. -/
def handle (cfg : Config κ) (k : Kernel κ β γ) (P : MeasurementQueue β γ Q)
    (x : State T κ β γ Q × ℕ) (m : Measurement β γ) (rest : Q) : State T κ β γ Q × ℕ :=
  let (s, restored) := x
  let filter := processMeasurement k (controlled cfg s.filter restored m) m
  let s := { s with filter := filter }
  let s :=
    if cfg.smoothLaggedData then
      { s with
        measurementHistory := m :: s.measurementHistory
        filterStateHistory :=
          if lastOfItsTime P rest filter.lastMeasurementTime then
            ⟨filter.estimate, filter.lastMeasurementTime⟩ :: s.filterStateHistory
          else s.filterStateHistory }
    else s
  (s, if fromHistory cfg restored then restored - 1 else restored)

def processDue (cfg : Config κ) (k : Kernel κ β γ) (P : MeasurementQueue β γ Q)
    (s : State T κ β γ Q) (restored : ℕ) (currentTime : ℤ) : State T κ β γ Q :=
  let (queue, s', _) :=
    drain P currentTime (handle cfg k P) (P.size s.measurementQueue) s.measurementQueue (s, restored)
  { s' with measurementQueue := queue }

def predictToCurrent (k : Kernel κ β γ) (predict : Bool) (s : State T κ β γ Q) (currentTime : ℤ) :
    State T κ β γ Q :=
  if s.filter.initialized && predict then
    { s with
      filter :=
        { s.filter with
          estimate := k.predict s.filter.control currentTime
            (currentTime - s.filter.lastMeasurementTime) s.filter.estimate
          lastMeasurementTime := currentTime } }
  else s

/-- Back to before the first measurement of the queue, where it is late. -/
def revertForLate (cfg : Config κ) (P : MeasurementQueue β γ Q) (s : State T κ β γ Q)
    (first : Measurement β γ) : State T κ β γ Q :=
  if cfg.smoothLaggedData && decide (first.time < s.filter.lastMeasurementTime) then
    revertTo P s (first.time - 1)
  else s

def integrateMeasurements (cfg : Config κ) (k : Kernel κ β γ) (P : MeasurementQueue β γ Q)
    (s : State T κ β γ Q) (currentTime : ℤ) : State T κ β γ Q :=
  match P.pop s.measurementQueue with
  | some (first, _) =>
    let s' := revertForLate cfg P s first
    let restored := P.size s'.measurementQueue - P.size s.measurementQueue
    predictToCurrent k cfg.predictToCurrentTime (processDue cfg k P s' restored currentTime)
      currentTime
  | none =>
    let timedOut := decide (cfg.sensorTimeout ≤ currentTime - s.filter.lastMeasurementTime)
    predictToCurrent k (cfg.predictToCurrentTime || timedOut) s currentTime

/-! ### `periodicUpdate` -/

def clearExpiredHistory (s : State T κ β γ Q) (cutoff : ℤ) : State T κ β γ Q :=
  { s with
    measurementHistory := s.measurementHistory.rdropWhile fun m => m.time < cutoff
    filterStateHistory :=
      s.filterStateHistory.rdropWhile fun st => st.lastMeasurementTime < cutoff }

def expireHistory (cfg : Config κ) (s : State T κ β γ Q) : State T κ β γ Q :=
  if cfg.smoothLaggedData && decide (cfg.historyLength < s.filter.lastMeasurementTime) then
    clearExpiredHistory s (s.filter.lastMeasurementTime - cfg.historyLength)
  else s

/-- With processing off the queue is emptied and the filter told that time has passed. -/
def updateFilter (cfg : Config κ) (k : Kernel κ β γ) (P : MeasurementQueue β γ Q)
    (s : State T κ β γ Q) (curTime now : ℤ) : State T κ β γ Q :=
  if s.toggledOn then integrateMeasurements cfg k P s curTime
  else
    { s with
      measurementQueue := P.empty
      filter :=
        { s.filter with
          lastMeasurementTime :=
            if s.filter.initialized then now else s.filter.lastMeasurementTime } }

/-- A stamp that is not later than the last one is left out. -/
def publishEstimate (cfg : Config κ) (s : State T κ β γ Q) :
    State T κ β γ Q × Option (Estimate κ) :=
  if s.filter.initialized then
    let stamp := s.filter.lastMeasurementTime
    let corrected := !cfg.permitCorrectedPublication && decide (stamp ≤ s.lastPublishedStamp)
    ({ s with lastPublishedStamp := stamp },
      if corrected then none else some ⟨stamp, s.filter.estimate⟩)
  else (s, none)

def periodicUpdate (cfg : Config κ) (k : Kernel κ β γ) (P : MeasurementQueue β γ Q)
    (s : State T κ β γ Q) (curTime now : ℤ) : State T κ β γ Q × Option (Estimate κ) :=
  if ¬ s.enabled then (s, none)
  else
    let (s', out) := publishEstimate cfg (updateFilter cfg k P s curTime now)
    (expireHistory cfg s', out)

def step [DecidableEq T] (cfg : Config κ) (k : Kernel κ β γ) (P : MeasurementQueue β γ Q) :
    Callback.Step (State T κ β γ Q) (Event T κ β γ) (Estimate κ)
  | s, .sensor topic stamp body => (sensorCallback P s topic stamp body, none)
  | s, .control control stamp => (controlStampedCallback s control stamp, none)
  | s, .setPose stamp estimate now => (setPoseCallback P s stamp estimate now, none)
  | s, .reset => (reset cfg P s, none)
  | s, .toggle on => ({ s with toggledOn := on }, none)
  | s, .enable => ({ s with enabled := true }, none)
  | s, .deactivate => (reset cfg P { s with enabled := false }, none)
  | s, .update curTime now => periodicUpdate cfg k P s curTime now

def initial (cfg : Config κ) (P : MeasurementQueue β γ Q) (control : γ × ℤ) (enabled : Bool) :
    State T κ β γ Q where
  filter := ⟨false, cfg.initialEstimate, 0, control⟩
  measurementQueue := P.empty
  filterStateHistory := []
  measurementHistory := []
  latestControl := control
  lastMessageTimes := fun _ => none
  lastSetPoseTime := 0
  lastPublishedStamp := 0
  enabled := enabled
  toggledOn := true

end RosFilter
end RtkLocalization
