import RtkLocalization.MapOriginRecorder

/-!
# One run of `map_origin_recorder.py` and the file it leaves

The node together with the file system: a message is handled while the output
path holds what earlier writes have left there, and nobody else writes to it.
`origin_written_once` says when the file is written and with what content, for
every interleaving of fix and heading messages. The number type is arbitrary, so
the statement covers the floating-point values as they are.
-/

namespace RtkLocalization
namespace MapOriginRecorder

open Callback

inductive Message (α : Type) where
  | heading (msg : Imu α)
  | fix (msg : NavSatFix α)

/-- What lies at `output_path`: a file from before the run or the recorded one. -/
inductive Contents (α : Type) where
  | earlier (text : String)
  | origin (file : OriginFile α)

structure System (α : Type) where
  node : State α
  disk : Option (Contents α)

section Model
variable {α : Type} [Add α] [Sub α] [Mul α] [OfScientific α] [PyMath α]

def Message.event : Message α → Bool → Event α
  | .heading msg, pathExists => .heading msg pathExists
  | .fix msg, pathExists => .fix msg pathExists

/-- One callback with the file system: `os.path.exists` is answered from the disk,
and what is written replaces what was there. -/
def record (cfg : Config α) : Step (System α) (Message α) (OriginFile α) := fun s m =>
  let (node, written) := callback cfg s.node (m.event s.disk.isSome)
  match written with
  | none => (⟨node, s.disk⟩, none)
  | some file => (⟨node, some (.origin file)⟩, some file)

def Message.fix? : Message α → Option (NavSatFix α)
  | .heading _ => none
  | .fix msg => some msg

def Message.heading? : Message α → Option (Imu α)
  | .heading msg => some msg
  | .fix _ => none

def recentFix (msgs : List (Message α)) : Option (NavSatFix α) :=
  (msgs.filterMap Message.fix?).getLast?

def recentHeading (msgs : List (Message α)) : Option (Imu α) :=
  (msgs.filterMap Message.heading?).getLast?

def recordedYaw (cfg : Config α) (msg : Imu α) : α :=
  normalizeAngle (yawFromQuaternion msg.orientation + cfg.headingYawOffset)

/-- A fix has been received and, if one is required, a heading. -/
def Ready (cfg : Config α) (msgs : List (Message α)) : Prop :=
  (recentFix msgs).isSome = true ∧
  (cfg.requireHeading = true → (recentHeading msgs).isSome = true)

/-- The file for the most recent fix and heading, with yaw zero without heading. -/
def originOf (cfg : Config α) (msgs : List (Message α)) : Option (OriginFile α) :=
  (recentFix msgs).map fun fix =>
    ⟨cfg.frameId, fix.latitude, fix.longitude, fix.altitude,
      ((recentHeading msgs).map (recordedYaw cfg)).getD 0.0, fix.header.stamp⟩

/-! ### One message -/

theorem disk_of_written {cfg : Config α} {s : System α} {m : Message α} {file : OriginFile α}
    (h : (record cfg s m).2 = some file) : (record cfg s m).1.disk = some (.origin file) := by
  unfold record at h ⊢
  cases hwritten : (callback cfg s.node (m.event s.disk.isSome)).2 with
  | none =>
    simp only [hwritten] at h
    exact absurd h (Option.some_ne_none file).symm
  | some file' =>
    simp only [hwritten] at h ⊢
    rw [Option.some_injective _ h]

/-- The state `_try_record` sees. -/
def receive (cfg : Config α) (s : State α) : Message α → State α
  | .heading msg => { s with latestYaw := some (recordedYaw cfg msg) }
  | .fix msg => { s with latestFix := some msg }

theorem callback_event (cfg : Config α) (s : State α) (m : Message α) (pathExists : Bool) :
    callback cfg s (m.event pathExists) = tryRecord cfg (receive cfg s m) pathExists := by
  cases m with
  | heading msg => rfl
  | fix msg => rfl

def CanRecord (cfg : Config α) (s : State α) : Prop :=
  s.latestFix.isSome = true ∧ (cfg.requireHeading = true → s.latestYaw.isSome = true)

def heldOrigin (cfg : Config α) (s : State α) : Option (OriginFile α) :=
  s.latestFix.map fun fix =>
    ⟨cfg.frameId, fix.latitude, fix.longitude, fix.altitude, s.latestYaw.getD 0.0,
      fix.header.stamp⟩

omit [Add α] [Sub α] [Mul α] [PyMath α] in
theorem tryRecord_of_not (cfg : Config α) {s : State α} (pathExists : Bool)
    (h : s.recorded = true ∨ ¬ CanRecord cfg s) : tryRecord cfg s pathExists = (s, none) := by
  unfold tryRecord
  cases hfix : s.latestFix with
  | none => rfl
  | some fix =>
    dsimp only
    rcases h with hrecorded | hcan
    · rw [if_pos hrecorded]
    · have hheading : cfg.requireHeading = true ∧ s.latestYaw.isNone = true := by
        by_contra hnot
        refine hcan ⟨by rw [hfix]; rfl, fun hrequire => ?_⟩
        rw [← Option.not_isNone, Bool.not_eq_true', ← Bool.not_eq_true]
        exact fun hnone => hnot ⟨hrequire, hnone⟩
      rw [if_pos hheading]
      exact ite_self _

omit [Add α] [Sub α] [Mul α] [PyMath α] in
theorem tryRecord_of_can {cfg : Config α} {s : State α} (hrecorded : s.recorded = false)
    (hcan : CanRecord cfg s) (pathExists : Bool) :
    tryRecord cfg s pathExists
      = ({ s with recorded := true },
          if pathExists ∧ ¬ cfg.overwrite then none else heldOrigin cfg s) := by
  obtain ⟨fix, hfix⟩ := Option.isSome_iff_exists.mp hcan.1
  have hheading : ¬ (cfg.requireHeading = true ∧ s.latestYaw.isNone = true) := by
    intro h
    have hsome := hcan.2 h.1
    rw [← Option.not_isNone, h.2] at hsome
    exact Bool.noConfusion hsome
  simp only [tryRecord, heldOrigin, hfix, hrecorded, Bool.false_eq_true, if_false, if_neg hheading,
    Option.map_some]
  split_ifs
  · rfl
  · rfl

/-! ### The invariant of a run -/

omit [Add α] [Sub α] [Mul α] [OfScientific α] [PyMath α] in
theorem recentFix_append (msgs : List (Message α)) (m : Message α) :
    recentFix (msgs ++ [m]) = m.fix?.or (recentFix msgs) := by
  cases m with
  | heading msg => simp [recentFix, Message.fix?]
  | fix msg => simp [recentFix, Message.fix?]

omit [Add α] [Sub α] [Mul α] [OfScientific α] [PyMath α] in
theorem recentHeading_append (msgs : List (Message α)) (m : Message α) :
    recentHeading (msgs ++ [m]) = m.heading?.or (recentHeading msgs) := by
  cases m with
  | heading msg => simp [recentHeading, Message.heading?]
  | fix msg => simp [recentHeading, Message.heading?]

omit [Add α] [Sub α] [Mul α] [OfScientific α] [PyMath α] in
theorem ready_append {cfg : Config α} {msgs : List (Message α)} (h : Ready cfg msgs)
    (m : Message α) : Ready cfg (msgs ++ [m]) := by
  refine ⟨?_, fun hrequire => ?_⟩
  · rw [recentFix_append, Option.isSome_or, h.1, Bool.or_true]
  · rw [recentHeading_append, Option.isSome_or, h.2 hrequire, Bool.or_true]

/-- After the messages `msgs`, from a disk that held `before`. -/
structure Holds (cfg : Config α) (before : Option (Contents α)) (msgs : List (Message α))
    (s : System α) : Prop where
  fix : s.node.latestFix = recentFix msgs
  yaw : s.node.latestYaw = (recentHeading msgs).map (recordedYaw cfg)
  recorded : s.node.recorded = true ↔ Ready cfg msgs
  disk : ¬ Ready cfg msgs → s.disk = before

/-- What handling `m` after `msgs` can do. -/
inductive RecordStep (cfg : Config α) (msgs : List (Message α)) (s : System α) (m : Message α) : Prop
  | quiet (hquiet : Ready cfg msgs ∨ ¬ Ready cfg (msgs ++ [m]))
      (hstep : record cfg s m = (⟨receive cfg s.node m, s.disk⟩, none))
  | refused (hfirst : ¬ Ready cfg msgs) (hready : Ready cfg (msgs ++ [m]))
      (hexists : s.disk ≠ none) (hkeep : cfg.overwrite = false)
      (hstep : record cfg s m = (⟨{ receive cfg s.node m with recorded := true }, s.disk⟩, none))
  | written (hfirst : ¬ Ready cfg msgs) (hready : Ready cfg (msgs ++ [m]))
      (hallowed : s.disk = none ∨ cfg.overwrite = true) (file : OriginFile α)
      (hfile : originOf cfg (msgs ++ [m]) = some file)
      (hstep : record cfg s m
        = (⟨{ receive cfg s.node m with recorded := true }, some (.origin file)⟩, some file))

section Run
variable {cfg : Config α} {before : Option (Contents α)} {msgs : List (Message α)} {s : System α}

theorem Holds.receive_fix (h : Holds cfg before msgs s) (m : Message α) :
    (receive cfg s.node m).latestFix = recentFix (msgs ++ [m]) := by
  rw [recentFix_append, ← h.fix]
  cases m with
  | heading msg => rfl
  | fix msg => rfl

theorem Holds.receive_yaw (h : Holds cfg before msgs s) (m : Message α) :
    (receive cfg s.node m).latestYaw
      = (recentHeading (msgs ++ [m])).map (recordedYaw cfg) := by
  have hyaw := h.yaw
  rw [recentHeading_append]
  cases m with
  | heading msg => rfl
  | fix msg => exact hyaw

theorem Holds.canRecord_iff (h : Holds cfg before msgs s) (m : Message α) :
    CanRecord cfg (receive cfg s.node m) ↔ Ready cfg (msgs ++ [m]) := by
  rw [CanRecord, Ready, h.receive_fix, h.receive_yaw, Option.isSome_map]

theorem receive_recorded (cfg : Config α) (s : State α) (m : Message α) :
    (receive cfg s m).recorded = s.recorded := by
  cases m with
  | heading msg => rfl
  | fix msg => rfl

theorem recordStep (h : Holds cfg before msgs s) (m : Message α) : RecordStep cfg msgs s m := by
  have hcan := h.canRecord_iff m
  have hrec := receive_recorded cfg s.node m
  by_cases hquiet : Ready cfg msgs ∨ ¬ Ready cfg (msgs ++ [m])
  · have hnot : (receive cfg s.node m).recorded = true ∨
        ¬ CanRecord cfg (receive cfg s.node m) := by
      rw [hrec, h.recorded, hcan]
      exact hquiet
    refine .quiet hquiet ?_
    simp only [record, callback_event, tryRecord_of_not cfg _ hnot]
  · obtain ⟨hfirst, hready⟩ := not_or.mp hquiet
    rw [not_not] at hready
    have hopen : (receive cfg s.node m).recorded = false := by
      rw [hrec, ← Bool.not_eq_true, h.recorded]
      exact hfirst
    have htry := tryRecord_of_can hopen (hcan.mpr hready) s.disk.isSome
    have hheld : heldOrigin cfg (receive cfg s.node m) = originOf cfg (msgs ++ [m]) := by
      rw [heldOrigin, originOf, h.receive_fix, h.receive_yaw]
    rw [hheld] at htry
    by_cases hblocked : s.disk.isSome = true ∧ ¬ cfg.overwrite = true
    · rw [if_pos hblocked] at htry
      refine .refused hfirst hready (Option.isSome_iff_ne_none.mp hblocked.1)
        (Bool.not_eq_true _ ▸ hblocked.2) ?_
      simp only [record, callback_event, htry]
    · rw [if_neg hblocked] at htry
      obtain ⟨fix, hfix⟩ := Option.isSome_iff_exists.mp hready.1
      obtain ⟨file, hfile⟩ : ∃ file, originOf cfg (msgs ++ [m]) = some file := by
        rw [originOf, hfix]
        exact ⟨_, rfl⟩
      rw [hfile] at htry
      refine .written hfirst hready ?_ file hfile ?_
      · cases hdisk : s.disk with
        | none => exact .inl rfl
        | some contents =>
          rw [hdisk] at hblocked
          exact .inr (not_not.mp fun h => hblocked ⟨rfl, h⟩)
      · simp only [record, callback_event, htry]

theorem holds_step (h : Holds cfg before msgs s) (m : Message α) :
    Holds cfg before (msgs ++ [m]) (record cfg s m).1 := by
  have hfix := h.receive_fix m
  have hyaw := h.receive_yaw m
  cases recordStep h m with
  | quiet hquiet hstep =>
    rw [hstep]
    refine ⟨hfix, hyaw, ?_, fun hnot => h.disk fun hready => hnot (ready_append hready m)⟩
    rw [receive_recorded, h.recorded]
    exact ⟨fun hready => ready_append hready m, fun hready => hquiet.resolve_right (not_not.mpr hready)⟩
  | refused hfirst hready hexists hkeep hstep =>
    rw [hstep]
    exact ⟨hfix, hyaw, iff_of_true rfl hready, fun hnot => absurd hready hnot⟩
  | written hfirst hready hallowed file hfile hstep =>
    rw [hstep]
    exact ⟨hfix, hyaw, iff_of_true rfl hready, fun hnot => absurd hready hnot⟩

end Run

/-- The system at start: nothing received, `before` on the disk. -/
def start (before : Option (Contents α)) : System α := ⟨State.initial, before⟩

theorem holds_stateAfter (cfg : Config α) (before : Option (Contents α)) (msgs : List (Message α)) :
    Holds cfg before msgs (stateAfter (record cfg) (start before) msgs) := by
  induction msgs using List.reverseRecOn with
  | nil => exact ⟨rfl, rfl, iff_of_false Bool.false_ne_true fun h => Bool.noConfusion h.1, fun _ => rfl⟩
  | append_singleton msgs m ih =>
    rw [stateAfter_append]
    exact holds_step ih m

/-! ### The file of a run -/

theorem writes_iff (cfg : Config α) (before : Option (Contents α)) (msgs : List (Message α))
    (m : Message α) (file : OriginFile α) :
    let s := stateAfter (record cfg) (start before) msgs
    (record cfg s m).2 = some file ↔
      ¬ Ready cfg msgs ∧ Ready cfg (msgs ++ [m]) ∧ (s.disk = none ∨ cfg.overwrite = true) ∧
      originOf cfg (msgs ++ [m]) = some file := by
  intro s
  cases recordStep (holds_stateAfter cfg before msgs) m with
  | quiet hquiet hstep =>
    rw [hstep]
    refine iff_of_false (Option.some_ne_none file).symm fun h => ?_
    exact hquiet.elim h.1 fun hnot => hnot h.2.1
  | refused hfirst hready hexists hkeep hstep =>
    rw [hstep]
    refine iff_of_false (Option.some_ne_none file).symm fun h => ?_
    exact h.2.2.1.elim hexists fun hover => Bool.noConfusion (hkeep.symm.trans hover)
  | written hfirst hready hallowed file' hfile hstep =>
    rw [hstep, hfile]
    exact ⟨fun h => ⟨hfirst, hready, hallowed, h⟩, fun h => h.2.2.2⟩

/-- A run has written nothing and left the disk alone, or it has written one file
which is on the disk. -/
theorem untouched_or_written (cfg : Config α) (before : Option (Contents α))
    (msgs : List (Message α)) :
    let s := stateAfter (record cfg) (start before) msgs
    let files := published (record cfg) (start before) msgs
    (files = [] ∧ s.disk = before) ∨
    (Ready cfg msgs ∧ ∃ file, files = [file] ∧ s.disk = some (.origin file)) := by
  induction msgs using List.reverseRecOn with
  | nil => exact .inl ⟨rfl, rfl⟩
  | append_singleton msgs m ih =>
    rw [stateAfter_append, published_append_singleton]
    cases recordStep (holds_stateAfter cfg before msgs) m with
    | quiet hquiet hstep =>
      simp only [stateAfter, hstep, Option.toList_none, List.append_nil]
      exact ih.imp_right fun h => ⟨ready_append h.1 m, h.2⟩
    | refused hfirst hready hexists hkeep hstep =>
      simp only [stateAfter, hstep, Option.toList_none, List.append_nil]
      exact ih.imp_right fun h => absurd h.1 hfirst
    | written hfirst hready hallowed file hfile hstep =>
      -- nothing was written as long as the node was not ready
      obtain ⟨hnil, -⟩ := ih.resolve_right fun h => hfirst h.1
      simp only [stateAfter, hstep, hnil]
      exact .inr ⟨hready, file, rfl, rfl⟩

theorem disk_of_ready {cfg : Config α} {msgs : List (Message α)} (hready : Ready cfg msgs)
    (before : Option (Contents α)) (later : List (Message α)) :
    (stateAfter (record cfg) (start before) (msgs ++ later)).disk
      = (stateAfter (record cfg) (start before) msgs).disk ∧ Ready cfg (msgs ++ later) := by
  induction later using List.reverseRecOn with
  | nil =>
    rw [List.append_nil]
    exact ⟨rfl, hready⟩
  | append_singleton later m ih =>
    obtain ⟨hdisk, hlater⟩ := ih
    rw [← List.append_assoc, stateAfter_append]
    cases recordStep (holds_stateAfter cfg before (msgs ++ later)) m with
    | quiet hquiet hstep =>
      simp only [stateAfter, hstep]
      exact ⟨hdisk, ready_append hlater m⟩
    | refused hfirst => exact absurd hlater hfirst
    | written hfirst => exact absurd hlater hfirst

/-- For every interleaving `msgs`: at most one file is written. The next message
writes exactly when it makes the node ready for the first time and the path is
free or may be overwritten; the content is that of the most recent fix and
heading. Until then the path holds what it held before the run, and afterwards no
message changes it. -/
theorem origin_written_once (cfg : Config α) (before : Option (Contents α))
    (msgs : List (Message α)) :
    let s := stateAfter (record cfg) (start before) msgs
    (published (record cfg) (start before) msgs).length ≤ 1 ∧
    (∀ m file, (record cfg s m).2 = some file ↔
      (¬ Ready cfg msgs ∧ Ready cfg (msgs ++ [m])) ∧ (s.disk = none ∨ cfg.overwrite = true) ∧
      originOf cfg (msgs ++ [m]) = some file) ∧
    (¬ Ready cfg msgs → s.disk = before) ∧
    (published (record cfg) (start before) msgs = [] → s.disk = before) ∧
    ∀ m file, (record cfg s m).2 = some file → ∀ later,
      (stateAfter (record cfg) (start before) (msgs ++ m :: later)).disk
        = some (.origin file) := by
  intro s
  have hcases := untouched_or_written cfg before msgs
  refine ⟨?_, fun m file => ?_, (holds_stateAfter cfg before msgs).disk, ?_, ?_⟩
  · rcases hcases with ⟨hnil, -⟩ | ⟨-, file, hone, -⟩
    · rw [hnil]
      exact Nat.zero_le 1
    · rw [hone]
      exact le_rfl
  · rw [and_assoc]
    exact writes_iff cfg before msgs m file
  · intro hnil
    rcases hcases with ⟨-, hdisk⟩ | ⟨-, file, hone, -⟩
    · exact hdisk
    · exact absurd (hnil.symm.trans hone) (List.cons_ne_nil _ _).symm
  · intro m file hwrite later
    obtain ⟨-, hready, -, -⟩ := (writes_iff cfg before msgs m file).mp hwrite
    have hlater := (disk_of_ready hready before later).1
    rw [List.append_assoc, List.singleton_append] at hlater
    rw [hlater, stateAfter_append]
    exact disk_of_written hwrite

end Model

end MapOriginRecorder
end RtkLocalization
