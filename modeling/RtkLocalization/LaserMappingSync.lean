import RtkLocalization.LaserMapping
import Mathlib.Data.List.Zip
import Mathlib.Data.Rat.Floor
import Mathlib.Tactic.Linarith
import Mathlib.Tactic.NormNum
import Mathlib.Tactic.Positivity

/-!
# What becomes of scans and samples

Facts about every run of the callbacks and the timer.
-/

namespace RtkLocalization
namespace LaserMapping

variable {K β : Type} [Field K] [LinearOrder K] {cfg : Config K}

/-! ### What a step receives and loses -/

def samplesOf [FloorRing K] (cfg : Config K) (s : State K β) : Event K β → List (Imu β)
  | .imu msg => [restamped cfg s msg]
  | _ => []

def scansOf : Event K β → List (K × List (Point K))
  | .standardPcl stamp cloud | .livoxPcl stamp cloud => [(getTimeSec stamp, cloud)]
  | _ => []

/-- The scans that a loop back clears. -/
def droppedBy (s : State K β) : Event K β → List (List (Point K))
  | .standardPcl stamp _ | .livoxPcl stamp _ =>
    if lidarLoopsBack s (getTimeSec stamp) then s.lidarBuffer else []
  | _ => []

/-- The samples do not loop back. -/
def ImuForward [FloorRing K] (cfg : Config K) (s : State K β) : Event K β → Prop
  | .imu msg => s.lastTimestampImu ≤ getTimeSec (restamped cfg s msg).stamp
  | _ => True

instance decidableImuForward [FloorRing K] (cfg : Config K) :
    ∀ (s : State K β) x, Decidable (ImuForward cfg s x)
  | s, .imu msg =>
    inferInstanceAs (Decidable (s.lastTimestampImu ≤ getTimeSec (restamped cfg s msg).stamp))
  | _, .standardPcl .. | _, .livoxPcl .. | _, .timer => .isTrue trivial

/-! ### Functions -/

theorem selfSync_eq (s : State K β) :
    selfSync cfg s = { s with
      timediffSetFlg := (selfSync cfg s).timediffSetFlg
      timediffLidarWrtImu := (selfSync cfg s).timediffLidarWrtImu } := by
  unfold selfSync
  split_ifs <;> rfl

theorem selfSync_set (cfg : Config K) (s : State K β) :
    selfSync cfg s = s ∨ cfg.timeSyncEn ∧
      (selfSync cfg s).timediffSetFlg ∧
      1 < |s.lastTimestampLidar - s.lastTimestampImu| ∧
      (selfSync cfg s).timediffLidarWrtImu = s.lastTimestampLidar + 0.1 - s.lastTimestampImu := by
  unfold selfSync
  split_ifs with h
  · simp only [Bool.and_eq_true, decide_eq_true_eq] at h
    exact Or.inr ⟨h.1.1.1, rfl, h.1.2, rfl⟩
  · exact Or.inl rfl

theorem pushLidar_eq (s : State K β) :
    pushLidar s = { s with
      lidarPushed := (pushLidar s).lidarPushed
      lidarMeanScantime := (pushLidar s).lidarMeanScantime
      scanNum := (pushLidar s).scanNum
      meas := (pushLidar s).meas } := by
  unfold pushLidar
  split <;> rfl

theorem pushLidar_meas {s : State K β} {cloud : List (Point K)} {begTime : K}
    {clouds : List (List (Point K))} {times : List K} (hlidar : s.lidarBuffer = cloud :: clouds)
    (htime : s.timeBuffer = begTime :: times) :
    (pushLidar s).lidarPushed = true ∧ (pushLidar s).meas.lidar = cloud ∧
      (pushLidar s).meas.lidarBegTime = begTime := by
  unfold pushLidar
  rw [hlidar, htime]
  exact ⟨rfl, rfl, rfl⟩

theorem takeImu_append (endTime imuTime : K) (xs : List (Imu β)) :
    (takeImu endTime imuTime xs).1 ++ (takeImu endTime imuTime xs).2 = xs := by
  induction xs generalizing imuTime with
  | nil => rfl
  | cons msg rest ih =>
    unfold takeImu
    split_ifs
    · rfl
    · exact congrArg (msg :: ·) (ih _)
    · rfl

theorem takeImu_le (endTime imuTime : K) (xs : List (Imu β)) :
    ∀ msg ∈ (takeImu endTime imuTime xs).1, getTimeSec msg.stamp ≤ endTime := by
  induction xs generalizing imuTime with
  | nil => exact fun msg h => absurd h List.not_mem_nil
  | cons first rest ih =>
    unfold takeImu
    split_ifs with hlt hgt
    · exact fun msg h => absurd h List.not_mem_nil
    · exact List.forall_mem_cons.mpr ⟨not_lt.mp hgt, ih _⟩
    · exact fun msg h => absurd h List.not_mem_nil

theorem le_takeImu {endTime imuTime : K} {xs : List (Imu β)}
    (hsorted : xs.Pairwise fun a b => (getTimeSec a.stamp : K) ≤ getTimeSec b.stamp)
    (hle : ∀ msg ∈ xs, imuTime ≤ getTimeSec msg.stamp) :
    ∀ msg ∈ (takeImu endTime imuTime xs).2, endTime ≤ getTimeSec msg.stamp := by
  induction xs generalizing imuTime with
  | nil => exact fun msg h => absurd h List.not_mem_nil
  | cons first rest ih =>
    obtain ⟨hfirst, hrest⟩ := List.pairwise_cons.mp hsorted
    unfold takeImu
    split_ifs with hlt hgt
    · exact List.forall_mem_cons.mpr ⟨hgt.le, fun msg h => hgt.le.trans (hfirst msg h)⟩
    · exact ih hrest hfirst
    · exact fun msg h => (not_lt.mp hlt).trans (hle msg h)

section FrontPushed
variable (s : State K β)

@[simp] theorem frontPushed_imuBuffer : (frontPushed s).imuBuffer = s.imuBuffer := by
  unfold frontPushed
  rw [pushLidar_eq]
  split_ifs <;> rfl

@[simp] theorem frontPushed_lidarBuffer : (frontPushed s).lidarBuffer = s.lidarBuffer := by
  unfold frontPushed
  rw [pushLidar_eq]
  split_ifs <;> rfl

@[simp] theorem frontPushed_timeBuffer : (frontPushed s).timeBuffer = s.timeBuffer := by
  unfold frontPushed
  rw [pushLidar_eq]
  split_ifs <;> rfl

@[simp] theorem frontPushed_lastTimestampImu :
    (frontPushed s).lastTimestampImu = s.lastTimestampImu := by
  unfold frontPushed
  rw [pushLidar_eq]
  split_ifs <;> rfl

theorem frontPushed_timediffSetFlg : (frontPushed s).timediffSetFlg = s.timediffSetFlg := by
  unfold frontPushed
  rw [pushLidar_eq]
  split_ifs <;> rfl

/-- What a call of the timer can do. -/
theorem syncPackages_cases :
    syncPackages s = (s, none) ∨
      s.lidarBuffer ≠ [] ∧
        (s.lastTimestampImu < (frontPushed s).meas.lidarEndTime ∧
            syncPackages s = (frontPushed s, none) ∨
          (frontPushed s).meas.lidarEndTime ≤ s.lastTimestampImu ∧
            ∃ first rest, s.imuBuffer = first :: rest ∧
              syncPackages s = popPackage (frontPushed s) (getTimeSec first.stamp)) := by
  unfold syncPackages
  cases hlidar : s.lidarBuffer with
  | nil => exact Or.inl rfl
  | cons cloud clouds =>
    cases himu : s.imuBuffer with
    | nil => exact Or.inl rfl
    | cons first rest =>
      refine Or.inr ⟨List.cons_ne_nil _ _, ?_⟩
      simp only [frontPushed_lastTimestampImu]
      split_ifs with hlt
      · exact Or.inl ⟨hlt, rfl⟩
      · exact Or.inr ⟨not_lt.mp hlt, first, rest, rfl, rfl⟩

end FrontPushed

/-! ### IMU samples -/

theorem livoxPclCbk_imuBuffer (s : State K β) (stamp : ℤ) (cloud : List (Point K)) :
    (livoxPclCbk cfg s stamp cloud).imuBuffer = s.imuBuffer := by
  unfold livoxPclCbk
  rw [selfSync_eq]
  rfl

theorem livoxPclCbk_lastTimestampImu (s : State K β) (stamp : ℤ) (cloud : List (Point K)) :
    (livoxPclCbk cfg s stamp cloud).lastTimestampImu = s.lastTimestampImu := by
  unfold livoxPclCbk
  rw [selfSync_eq]
  rfl

/-- A scan of a tenth of a second, with samples before, in and after it. -/
def briefRun : List (Event ℚ Unit) :=
  [.imu ⟨1000000000, ()⟩, .livoxPcl 1500000000 [⟨5, 0, 0, 0, 0⟩, ⟨5, 1, 0, 0, 100⟩],
    .imu ⟨1550000000, ()⟩, .timer, .imu ⟨1600000000, ()⟩, .imu ⟨1700000000, ()⟩, .timer]

example : ((Callback.published (step ⟨false, 0⟩) initial briefRun).map fun p =>
    (p.lidarEndTime, p.imu.map (·.stamp))) = [(1.6, [1000000000, 1550000000, 1600000000])] := by
  decide +kernel

/-- The samples that wait, after a package `p`. -/
structure Waiting (s : State K β) (p : MeasureGroup K β) : Prop where
  sorted : s.imuBuffer.Pairwise fun a b => (getTimeSec a.stamp : K) ≤ getTimeSec b.stamp
  received : ∀ m ∈ s.imuBuffer, getTimeSec m.stamp ≤ s.lastTimestampImu
  after : ∀ m ∈ s.imuBuffer, p.lidarEndTime ≤ getTimeSec m.stamp
  reached : p.lidarEndTime ≤ s.lastTimestampImu

theorem Waiting.of_eq {s s' : State K β} {p : MeasureGroup K β} (h : Waiting s p)
    (himu : s'.imuBuffer = s.imuBuffer) (hlast : s'.lastTimestampImu = s.lastTimestampImu) :
    Waiting s' p := by
  obtain ⟨hsorted, hreceived, hafter, hreached⟩ := h
  rw [← himu] at hsorted hreceived hafter
  rw [← hlast] at hreceived hreached
  exact ⟨hsorted, hreceived, hafter, hreached⟩

theorem waiting_popPackage {s : State K β} {p : MeasureGroup K β} (h : Waiting s p)
    {first : Imu β} {rest : List (Imu β)} (himu : s.imuBuffer = first :: rest)
    (hend : s.meas.lidarEndTime ≤ s.lastTimestampImu) :
    ∀ q ∈ (popPackage s (getTimeSec first.stamp)).2,
      (∀ m ∈ q.imu, p.lidarEndTime ≤ getTimeSec m.stamp) ∧
        Waiting (popPackage s (getTimeSec first.stamp)).1 q := by
  rintro q ⟨⟩
  have happend := takeImu_append s.meas.lidarEndTime (getTimeSec first.stamp) s.imuBuffer
  have hfirst : ∀ m ∈ s.imuBuffer, (getTimeSec first.stamp : K) ≤ getTimeSec m.stamp := by
    have hsorted := h.sorted
    rw [himu] at hsorted ⊢
    exact List.forall_mem_cons.mpr ⟨le_rfl, (List.pairwise_cons.mp hsorted).1⟩
  have hleft : (takeImu s.meas.lidarEndTime (getTimeSec first.stamp) s.imuBuffer).2.Sublist
      s.imuBuffer := List.IsSuffix.sublist ⟨_, happend⟩
  have htaken : (takeImu s.meas.lidarEndTime (getTimeSec first.stamp) s.imuBuffer).1.Sublist
      s.imuBuffer := List.IsPrefix.sublist ⟨_, happend⟩
  refine ⟨fun m hm => h.after m (htaken.subset hm), ?_⟩
  exact ⟨h.sorted.sublist hleft, fun m hm => h.received m (hleft.subset hm),
    le_takeImu h.sorted hfirst, hend⟩

section Samples
variable [FloorRing K]

theorem step_samples {s : State K β} {x : Event K β} (hx : ImuForward cfg s x) :
    ((step cfg s x).2.toList.flatMap fun p => p.imu) ++ (step cfg s x).1.imuBuffer
      = s.imuBuffer ++ samplesOf cfg s x := by
  cases x with
  | standardPcl stamp cloud => exact (List.append_nil _).symm
  | livoxPcl stamp cloud =>
    exact (livoxPclCbk_imuBuffer s stamp cloud).trans (List.append_nil _).symm
  | imu msg =>
    change (if _ < _ then [] else s.imuBuffer) ++ _ = _
    rw [if_neg (not_lt.mpr hx)]
    rfl
  | timer =>
    simp only [step, samplesOf, List.append_nil]
    rcases syncPackages_cases s with h | ⟨-, ⟨-, h⟩ | ⟨-, first, rest, -, h⟩⟩
    · rw [h]
      rfl
    · rw [h]
      exact frontPushed_imuBuffer s
    · rw [h]
      simp only [popPackage, Option.toList_some, List.flatMap_singleton, takeImu_append,
        frontPushed_imuBuffer]

/-- Where no sample loops back, the packages hold the samples that were received, each once
and in order, but for those that still wait. -/
theorem samples_conserved (cfg : Config K) {xs : List (Event K β)}
    (hxs : Callback.AllSteps (step cfg) (ImuForward cfg) initial xs) :
    ((Callback.published (step cfg) initial xs).flatMap fun p => p.imu)
        ++ (Callback.stateAfter (step cfg) initial xs).imuBuffer
      = Callback.collected (step cfg) (samplesOf cfg) initial xs := by
  rw [Callback.flatMap_published]
  exact Callback.collected_conserved (step cfg) (J := fun _ => True)
    (fun s x _ hx => ⟨trivial, step_samples hx⟩) trivial hxs

theorem samples_conserved_brief :
    ((Callback.published (step ⟨false, 0⟩) initial briefRun).flatMap fun p => p.imu)
        ++ (Callback.stateAfter (step ⟨false, 0⟩) initial briefRun).imuBuffer
      = Callback.collected (step ⟨false, 0⟩) (samplesOf ⟨false, 0⟩) initial briefRun :=
  samples_conserved ⟨false, 0⟩ (by decide +kernel)

theorem waiting_imuCbk {s : State K β} {p : MeasureGroup K β} (h : Waiting s p) {msg : Imu β}
    (hmsg : ImuForward cfg s (.imu msg)) : Waiting (imuCbk cfg s msg) p := by
  have hlast : s.lastTimestampImu ≤ getTimeSec (restamped cfg s msg).stamp := hmsg
  have himu : (imuCbk cfg s msg).imuBuffer = s.imuBuffer ++ [restamped cfg s msg] := by
    change (if _ < _ then [] else s.imuBuffer) ++ _ = _
    rw [if_neg (not_lt.mpr hlast)]
  refine ⟨?_, ?_, ?_, h.reached.trans hlast⟩
  · rw [himu]
    refine List.pairwise_append.mpr ⟨h.sorted, List.pairwise_singleton _ _, fun m hm m' hm' => ?_⟩
    rw [List.mem_singleton.mp hm']
    exact (h.received m hm).trans hlast
  · rw [himu]
    exact List.forall_mem_append.mpr ⟨fun m hm => (h.received m hm).trans hlast,
      List.forall_mem_singleton.mpr le_rfl⟩
  · rw [himu]
    exact List.forall_mem_append.mpr ⟨h.after, List.forall_mem_singleton.mpr
      (h.reached.trans hlast)⟩

theorem waiting_step {s : State K β} {x : Event K β} {p : MeasureGroup K β} (h : Waiting s p)
    (hx : ImuForward cfg s x) :
    ((step cfg s x).2 = none → Waiting (step cfg s x).1 p) ∧
      ∀ q ∈ (step cfg s x).2, (∀ m ∈ q.imu, p.lidarEndTime ≤ getTimeSec m.stamp) ∧
        Waiting (step cfg s x).1 q := by
  cases x with
  | standardPcl stamp cloud => exact ⟨fun _ => h.of_eq rfl rfl, fun q hq => by cases hq⟩
  | livoxPcl stamp cloud =>
    exact ⟨fun _ => h.of_eq (livoxPclCbk_imuBuffer s stamp cloud)
      (livoxPclCbk_lastTimestampImu s stamp cloud), fun q hq => by cases hq⟩
  | imu msg => exact ⟨fun _ => waiting_imuCbk h hx, fun q hq => by cases hq⟩
  | timer =>
    have hfront : Waiting (frontPushed s) p :=
      h.of_eq (frontPushed_imuBuffer s) (frontPushed_lastTimestampImu s)
    simp only [step]
    rcases syncPackages_cases s with heq | ⟨-, ⟨-, heq⟩ | ⟨hend, first, rest, himu, heq⟩⟩
    · rw [heq]
      exact ⟨fun _ => h, fun q hq => by cases hq⟩
    · rw [heq]
      exact ⟨fun _ => hfront, fun q hq => by cases hq⟩
    · rw [heq]
      refine ⟨fun hnone => absurd hnone (Option.some_ne_none _), ?_⟩
      exact waiting_popPackage hfront ((frontPushed_imuBuffer s).trans himu)
        (hend.trans_eq (frontPushed_lastTimestampImu s).symm)

theorem samples_le_end (cfg : Config K) (xs : List (Event K β)) :
    ∀ p ∈ Callback.published (step cfg) initial xs, ∀ m ∈ p.imu,
      getTimeSec m.stamp ≤ p.lidarEndTime := by
  refine Callback.published_forall (step cfg) (J := fun _ => True) (P := fun _ _ => True)
    (fun s x _ _ => ⟨trivial, fun p hp => ?_⟩) trivial
    (Callback.allSteps_of_forall _ (fun _ _ => trivial) _ _)
  cases x with
  | standardPcl stamp cloud => cases hp
  | livoxPcl stamp cloud => cases hp
  | imu msg => cases hp
  | timer =>
    simp only [step] at hp
    rcases syncPackages_cases s with heq | ⟨-, ⟨-, heq⟩ | ⟨-, first, rest, -, heq⟩⟩
    · rw [heq] at hp
      cases hp
    · rw [heq] at hp
      cases hp
    · rw [heq] at hp
      cases hp
      exact takeImu_le _ _ _

/-- A package holds samples between the end of the scan before and the end of its own. -/
theorem samples_in_window (cfg : Config K) {xs : List (Event K β)}
    (hxs : Callback.AllSteps (step cfg) (ImuForward cfg) initial xs) :
    (Callback.published (step cfg) initial xs).IsChain
        (fun p q => ∀ m ∈ q.imu, p.lidarEndTime ≤ getTimeSec m.stamp) ∧
      ∀ p ∈ Callback.published (step cfg) initial xs, ∀ m ∈ p.imu,
        getTimeSec m.stamp ≤ p.lidarEndTime := by
  have hinitial : Waiting (initial : State K β) ⟨0, -1, [], []⟩ :=
    ⟨List.Pairwise.nil, fun _ h => absurd h List.not_mem_nil,
      fun _ h => absurd h List.not_mem_nil, le_rfl⟩
  have hchain := Callback.published_isChain (step cfg) (J := Waiting) (P := ImuForward cfg)
    (R := fun p q => ∀ m ∈ q.imu, p.lidarEndTime ≤ getTimeSec m.stamp)
    (fun s x p h hx hnone => (waiting_step h hx).1 hnone)
    (fun s x p q h hx hsome => (waiting_step h hx).2 q hsome)
    initial xs _ hinitial hxs
  exact ⟨hchain.of_cons, samples_le_end cfg xs⟩

theorem samples_in_window_brief :
    (Callback.published (step ⟨false, 0⟩) initial briefRun).IsChain
        (fun p q => ∀ m ∈ q.imu, p.lidarEndTime ≤ getTimeSec m.stamp) ∧
      ∀ p ∈ Callback.published (step ⟨false, 0⟩) initial briefRun, ∀ m ∈ p.imu,
        getTimeSec m.stamp ≤ p.lidarEndTime :=
  samples_in_window ⟨false, 0⟩ (by decide +kernel)

end Samples

/-! ### Scans -/

structure Paired (s : State K β) : Prop where
  waits : s.lidarBuffer.length ≤ s.timeBuffer.length
  front : s.lidarPushed = true → s.timeBuffer.head? = some s.meas.lidarBegTime

omit [LinearOrder K] in
theorem paired_initial : Paired (initial : State K β) :=
  ⟨le_rfl, fun h => absurd h Bool.false_ne_true⟩

/-- The scan that `sync_packages` has chosen is still the first. -/
def Held (s : State K β) : Prop :=
  s.lidarPushed = true → s.lidarBuffer.head? = some s.meas.lidar

theorem frontPushed_scan {s : State K β} (h : Paired s) (hlidar : s.lidarBuffer ≠ []) :
    (frontPushed s).lidarPushed = true ∧
      s.timeBuffer.head? = some (frontPushed s).meas.lidarBegTime ∧
      (Held s → s.lidarBuffer.head? = some (frontPushed s).meas.lidar) := by
  unfold frontPushed
  split_ifs with hpushed
  · exact ⟨hpushed, h.front hpushed, fun hheld => hheld hpushed⟩
  · obtain ⟨cloud, clouds, hclouds⟩ := List.exists_cons_of_ne_nil hlidar
    have hwaits := h.waits
    rw [hclouds, List.length_cons] at hwaits
    obtain ⟨begTime, times, htimes⟩ := List.exists_cons_of_ne_nil
      (List.length_pos_iff.mp (by omega : 0 < s.timeBuffer.length))
    obtain ⟨hmeas, hcloud, hbeg⟩ := pushLidar_meas hclouds htimes
    rw [hclouds, htimes, hcloud, hbeg]
    exact ⟨hmeas, rfl, fun _ => rfl⟩

theorem livoxPclCbk_eq (s : State K β) (stamp : ℤ) (cloud : List (Point K)) :
    livoxPclCbk cfg s stamp cloud = { standardPclCbk s stamp cloud with
      timediffSetFlg := (livoxPclCbk cfg s stamp cloud).timediffSetFlg
      timediffLidarWrtImu := (livoxPclCbk cfg s stamp cloud).timediffLidarWrtImu } := by
  unfold livoxPclCbk
  rw [selfSync_eq]
  rfl

theorem paired_standardPclCbk {s : State K β} (h : Paired s) (stamp : ℤ)
    (cloud : List (Point K)) : Paired (standardPclCbk s stamp cloud) := by
  constructor
  · have hwaits := h.waits
    simp only [standardPclCbk, pushScan, clearLoopBack, List.length_append, List.length_singleton]
    split_ifs
    · rw [List.length_nil]
      omega
    · omega
  · intro hpushed
    have hfront : s.timeBuffer.head? = some s.meas.lidarBegTime := h.front hpushed
    simp only [standardPclCbk, pushScan, clearLoopBack, List.head?_append, hfront,
      Option.some_or]

theorem held_standardPclCbk {s : State K β} (h : Held s) {stamp : ℤ}
    (hkept : droppedBy s (.standardPcl stamp []) = []) (cloud : List (Point K)) :
    Held (standardPclCbk s stamp cloud) := by
  intro hpushed
  have hfront : s.lidarBuffer.head? = some s.meas.lidar := h hpushed
  simp only [droppedBy] at hkept
  simp only [standardPclCbk, pushScan, clearLoopBack, List.head?_append]
  split_ifs at hkept ⊢ with hback
  · rw [hkept] at hfront
    cases hfront
  · rw [hfront, Option.some_or]

theorem paired_popPackage {s : State K β} (h : Paired s) (imuTime : K) :
    Paired (popPackage s imuTime).1 where
  waits := by
    have hwaits := h.waits
    simp only [popPackage, List.length_tail]
    omega
  front hpushed := absurd hpushed Bool.false_ne_true

section Scans
variable [FloorRing K]

/-- One step: the stamps and, where nothing is dropped, the scans leave the deques in the
order in which they came. -/
theorem step_scans (cfg : Config K) {s : State K β} (h : Paired s) (x : Event K β) :
    Paired (step cfg s x).1 ∧
      (step cfg s x).2.toList.map (·.lidarBegTime) ++ (step cfg s x).1.timeBuffer
        = s.timeBuffer ++ (scansOf x).map Prod.fst ∧
      (Held s → droppedBy s x = [] → Held (step cfg s x).1 ∧
        (step cfg s x).2.toList.map (·.lidar) ++ (step cfg s x).1.lidarBuffer
          = s.lidarBuffer ++ (scansOf x).map Prod.snd) ∧
      (step cfg s x).2.toList.length + (step cfg s x).1.lidarBuffer.length
          + (droppedBy s x).length
        = s.lidarBuffer.length + (scansOf x).length := by
  have hpcl (stamp : ℤ) (cloud : List (Point K)) :
      Paired (standardPclCbk s stamp cloud) ∧
        (standardPclCbk s stamp cloud).timeBuffer = s.timeBuffer ++ [getTimeSec stamp] ∧
        (Held s → droppedBy s (.standardPcl stamp cloud) = [] →
          Held (standardPclCbk s stamp cloud) ∧
            (standardPclCbk s stamp cloud).lidarBuffer = s.lidarBuffer ++ [cloud]) ∧
        (standardPclCbk s stamp cloud).lidarBuffer.length
            + (droppedBy s (.standardPcl stamp cloud)).length
          = s.lidarBuffer.length + 1 := by
    refine ⟨paired_standardPclCbk h stamp cloud, rfl, fun hheld hkept => ?_, ?_⟩
    · refine ⟨held_standardPclCbk hheld hkept cloud, ?_⟩
      simp only [droppedBy] at hkept
      simp only [standardPclCbk, pushScan, clearLoopBack]
      split_ifs at hkept ⊢ with hback
      · rw [hkept]
      · rfl
    · simp only [standardPclCbk, pushScan, clearLoopBack, droppedBy, List.length_append,
        List.length_singleton]
      split_ifs
      · rw [List.length_nil]
        omega
      · rfl
  cases x with
  | standardPcl stamp cloud =>
    obtain ⟨hpaired, htime, hheld, hcount⟩ := hpcl stamp cloud
    exact ⟨hpaired, htime, hheld, by simpa [step, scansOf] using hcount⟩
  | livoxPcl stamp cloud =>
    obtain ⟨hpaired, htime, hheld, hcount⟩ := hpcl stamp cloud
    simp only [step]
    rw [livoxPclCbk_eq]
    exact ⟨⟨hpaired.waits, hpaired.front⟩, htime, fun hs hd => hheld hs hd,
      by simpa [scansOf, droppedBy] using hcount⟩
  | imu msg =>
    exact ⟨⟨h.waits, h.front⟩, (List.append_nil _).symm,
      fun hheld _ => ⟨hheld, (List.append_nil _).symm⟩, by simp [step, imuCbk, droppedBy, scansOf]⟩
  | timer =>
    simp only [step, scansOf, droppedBy, List.map_nil, List.append_nil, List.length_nil]
    rcases syncPackages_cases s with heq | ⟨hlidar, htimer⟩
    · rw [heq]
      exact ⟨h, rfl, fun hheld _ => ⟨hheld, rfl⟩, by simp⟩
    · obtain ⟨-, hbeg, hscan⟩ := frontPushed_scan h hlidar
      have hfront : Paired (frontPushed s) :=
        ⟨by simpa using h.waits, fun _ => by simpa using hbeg⟩
      rcases htimer with ⟨-, heq⟩ | ⟨-, first, rest, himu, heq⟩
      · rw [heq]
        refine ⟨hfront, frontPushed_timeBuffer s, fun hheld _ => ⟨?_, frontPushed_lidarBuffer s⟩,
          by simp⟩
        intro _
        rw [frontPushed_lidarBuffer]
        exact hscan hheld
      · rw [heq]
        refine ⟨paired_popPackage hfront _, ?_, fun hheld _ => ⟨?_, ?_⟩, ?_⟩
        · obtain ⟨times, htimes⟩ := List.head?_eq_some_iff.mp hbeg
          simp [popPackage, htimes]
        · exact fun hpushed => absurd hpushed Bool.false_ne_true
        · obtain ⟨clouds, hclouds⟩ := List.head?_eq_some_iff.mp (hscan hheld)
          simp [popPackage, hclouds]
        · have hpos := List.length_pos_iff.mpr hlidar
          simp [popPackage]
          omega

theorem scans_counted (cfg : Config K) {s : State K β} (h : Paired s) (xs : List (Event K β)) :
    (Callback.published (step cfg) s xs).length
        + (Callback.stateAfter (step cfg) s xs).lidarBuffer.length
        + (Callback.collected (step cfg) droppedBy s xs).length
      = s.lidarBuffer.length
        + (Callback.collected (step cfg) (fun _ x => scansOf x) s xs).length := by
  induction xs generalizing s with
  | nil => simp [Callback.published_nil, Callback.stateAfter, Callback.collected]
  | cons x xs ih =>
    obtain ⟨hpaired, -, -, hcount⟩ := step_scans cfg h x
    have hxs := ih hpaired
    simp only [Callback.collected, Callback.stateAfter, List.length_append]
    cases ho : (step cfg s x).2 with
    | none =>
      rw [Callback.published_cons_none _ _ ho]
      rw [ho, Option.toList_none, List.length_nil] at hcount
      omega
    | some o =>
      rw [Callback.published_cons_some _ _ ho, List.length_cons]
      rw [ho, Option.toList_some, List.length_singleton] at hcount
      omega

/-- Every run: the stamps of the packages are those of the scans, in their order. -/
theorem stamps_conserved (cfg : Config K) (xs : List (Event K β)) :
    (Callback.published (step cfg) initial xs).map (·.lidarBegTime)
        ++ (Callback.stateAfter (step cfg) initial xs).timeBuffer
      = (Callback.collected (step cfg) (fun _ x => scansOf x) initial xs).map Prod.fst := by
  rw [List.map_eq_flatMap, Callback.flatMap_published, Callback.map_collected]
  simp only [← List.map_eq_flatMap]
  exact Callback.collected_conserved (step cfg) (J := Paired) (P := fun _ _ => True)
    (fun s x h _ => ⟨(step_scans cfg h x).1, (step_scans cfg h x).2.1⟩) paired_initial
    (Callback.allSteps_of_forall _ (fun _ _ => trivial) _ _)

theorem clouds_conserved (cfg : Config K) {xs : List (Event K β)}
    (hxs : Callback.AllSteps (step cfg) (fun s x => droppedBy s x = []) initial xs) :
    (Callback.published (step cfg) initial xs).map (·.lidar)
        ++ (Callback.stateAfter (step cfg) initial xs).lidarBuffer
      = (Callback.collected (step cfg) (fun _ x => scansOf x) initial xs).map Prod.snd := by
  rw [List.map_eq_flatMap, Callback.flatMap_published, Callback.map_collected]
  simp only [← List.map_eq_flatMap]
  refine Callback.collected_conserved (step cfg) (J := fun s => Paired s ∧ Held s)
    (fun s x h hx => ?_) ⟨paired_initial, fun h => absurd h Bool.false_ne_true⟩ hxs
  obtain ⟨hpaired, -, hscan, -⟩ := step_scans cfg h.1 x
  obtain ⟨hheld, hcloud⟩ := hscan h.2 hx
  exact ⟨⟨hpaired, hheld⟩, hcloud⟩

end Scans

/-! ### Self synchronisation -/

section SelfSync
variable [FloorRing K] [IsStrictOrderedRing K]

/-- Scans from time `b` on, and samples that are not `b` seconds of nanoseconds away. -/
def Realistic (b : K) (s : State K β) : Event K β → Prop
  | .standardPcl stamp cloud | .livoxPcl stamp cloud =>
    b ≤ getTimeSec stamp ∧ ∀ p ∈ cloud, 0 ≤ p.curvature
  | .imu msg => s.timediffLidarWrtImu + getTimeSec msg.stamp < b * (nanoseconds : K)
  | .timer => True

instance decidableRealistic (b : K) : ∀ (s : State K β) x, Decidable (Realistic b s x)
  | s, .imu msg =>
    inferInstanceAs (Decidable (s.timediffLidarWrtImu + getTimeSec msg.stamp
      < b * (nanoseconds : K)))
  | _, .standardPcl stamp cloud | _, .livoxPcl stamp cloud =>
    inferInstanceAs (Decidable (b ≤ getTimeSec stamp ∧ ∀ p ∈ cloud, 0 ≤ p.curvature))
  | _, .timer => .isTrue trivial

structure Unsynced (cfg : Config K) (b : K) (s : State K β) : Prop where
  waits : s.lidarBuffer.length ≤ s.timeBuffer.length
  times : ∀ t ∈ s.timeBuffer, b ≤ t
  curvatures : ∀ cloud ∈ s.lidarBuffer, ∀ p ∈ cloud, 0 ≤ p.curvature
  mean : 0 ≤ s.lidarMeanScantime
  pushed : s.lidarPushed = true → b ≤ s.meas.lidarEndTime
  synced : s.timediffSetFlg = true → cfg.timeSyncEn = true ∧ 0.1 < |s.timediffLidarWrtImu|

theorem timeOfDouble_lt {b x : K} (hb : 0 < b) (hx : x < b * (nanoseconds : K)) :
    (getTimeSec (timeOfDouble x) : K) < b := by
  have hpos : (0 : K) < (nanoseconds : K) := by norm_num [nanoseconds]
  rw [getTimeSec, div_lt_iff₀ hpos]
  unfold timeOfDouble
  split_ifs with h0
  · exact (Int.floor_le x).trans_lt hx
  · have hceil : ⌈x⌉ ≤ 0 := Int.ceil_le.mpr (by simpa using (not_le.mp h0).le)
    have hcast : ((⌈x⌉ : ℤ) : K) ≤ 0 := by exact_mod_cast hceil
    exact hcast.trans_lt (mul_pos hb hpos)

theorem scanDuration_nonneg {p : Point K} (h : 0 ≤ p.curvature) : 0 ≤ scanDuration p :=
  div_nonneg h (by norm_num)

theorem unsynced_pushLidar {b : K} {s : State K β} (h : Unsynced cfg b s) :
    Unsynced cfg b (pushLidar s) := by
  obtain ⟨hwaits, htimes, hcurv, hmean, hpushed, hsynced⟩ := h
  unfold pushLidar
  split
  case h_2 => exact ⟨hwaits, htimes, hcurv, hmean, hpushed, hsynced⟩
  case h_1 cloud clouds begTime times hlidar htime =>
    have hbeg : b ≤ begTime := htimes begTime (htime ▸ List.mem_cons_self)
    have hlate : b ≤ begTime + s.lidarMeanScantime := by linarith
    dsimp only
    split
    case h_1 => exact ⟨hwaits, htimes, hcurv, hmean, fun _ => hlate, hsynced⟩
    case h_2 p hlast =>
      have hdur : 0 ≤ scanDuration p := scanDuration_nonneg
        (hcurv cloud (hlidar ▸ List.mem_cons_self) p (List.mem_of_getLast? hlast))
      split_ifs with hone hshort
      · exact ⟨hwaits, htimes, hcurv, hmean, fun _ => hlate, hsynced⟩
      · exact ⟨hwaits, htimes, hcurv, hmean, fun _ => hlate, hsynced⟩
      · refine ⟨hwaits, htimes, hcurv, ?_, fun _ => ?_, hsynced⟩
        · have hn : (1 : K) ≤ ((s.scanNum + 1 : ℕ) : K) := by
            exact_mod_cast Nat.le_add_left 1 s.scanNum
          change 0 ≤ s.lidarMeanScantime
            + (scanDuration p - s.lidarMeanScantime) / ((s.scanNum + 1 : ℕ) : K)
          have hle : s.lidarMeanScantime / ((s.scanNum + 1 : ℕ) : K) ≤ s.lidarMeanScantime :=
            div_le_self hmean hn
          have hnonneg := div_nonneg hdur (zero_le_one.trans hn)
          rw [sub_div]
          linarith
        · change b ≤ begTime + scanDuration p
          linarith

omit [FloorRing K] [IsStrictOrderedRing K] in
theorem unsynced_standardPclCbk {b : K} {s : State K β} (h : Unsynced cfg b s) {stamp : ℤ}
    {cloud : List (Point K)} (hstamp : b ≤ getTimeSec stamp)
    (hcloud : ∀ p ∈ cloud, 0 ≤ p.curvature) : Unsynced cfg b (standardPclCbk s stamp cloud) := by
  refine ⟨?_, ?_, ?_, h.mean, h.pushed, h.synced⟩
  · have hwaits := h.waits
    simp only [standardPclCbk, pushScan, clearLoopBack, List.length_append, List.length_singleton]
    split_ifs
    · rw [List.length_nil]
      omega
    · omega
  · exact List.forall_mem_append.mpr ⟨h.times, List.forall_mem_singleton.mpr hstamp⟩
  · refine List.forall_mem_append.mpr ⟨?_, List.forall_mem_singleton.mpr hcloud⟩
    simp only [clearLoopBack]
    split_ifs
    · exact fun _ hc => absurd hc List.not_mem_nil
    · exact h.curvatures

theorem unsynced_livoxPclCbk {b : K} {s : State K β} (h : Unsynced cfg b s) {stamp : ℤ}
    {cloud : List (Point K)} (hstamp : b ≤ getTimeSec stamp)
    (hcloud : ∀ p ∈ cloud, 0 ≤ p.curvature) :
    Unsynced cfg b (livoxPclCbk cfg s stamp cloud) := by
  have hpcl := unsynced_standardPclCbk h hstamp hcloud
  rw [livoxPclCbk_eq]
  refine ⟨hpcl.waits, hpcl.times, hpcl.curvatures, hpcl.mean, hpcl.pushed, ?_⟩
  change (selfSync cfg (clearLoopBack s (getTimeSec stamp))).timediffSetFlg = true → _ ∧
    0.1 < |(selfSync cfg (clearLoopBack s (getTimeSec stamp))).timediffLidarWrtImu|
  rcases selfSync_set cfg (clearLoopBack s (getTimeSec stamp)) with heq | hset
  · rw [heq]
    exact h.synced
  · obtain ⟨hen, -, hfar, hdiff⟩ := hset
    refine fun _ => ⟨hen, ?_⟩
    rw [hdiff]
    rcases lt_abs.mp hfar with hpos | hneg
    · exact lt_abs.mpr (Or.inl (by linarith))
    · exact lt_abs.mpr (Or.inr (by norm_num; linarith))

theorem unsynced_frontPushed {b : K} {s : State K β} (h : Unsynced cfg b s) :
    Unsynced cfg b (frontPushed s) := by
  unfold frontPushed
  split_ifs
  · exact h
  · exact unsynced_pushLidar h

omit [FloorRing K] [IsStrictOrderedRing K] in
theorem unsynced_popPackage {b : K} {s : State K β} (h : Unsynced cfg b s) (imuTime : K) :
    Unsynced cfg b (popPackage s imuTime).1 := by
  refine ⟨?_, fun t ht => h.times t (List.mem_of_mem_tail ht),
    fun cloud hc => h.curvatures cloud (List.mem_of_mem_tail hc), h.mean,
    fun hpushed => absurd hpushed Bool.false_ne_true, h.synced⟩
  have hwaits := h.waits
  simp only [popPackage, List.length_tail]
  omega

theorem unsynced_step {b : K} {s : State K β} (h : Unsynced cfg b s) {x : Event K β}
    (hx : Realistic b s x) : Unsynced cfg b (step cfg s x).1 := by
  cases x with
  | standardPcl stamp cloud => exact unsynced_standardPclCbk h hx.1 hx.2
  | livoxPcl stamp cloud => exact unsynced_livoxPclCbk h hx.1 hx.2
  | imu msg => exact ⟨h.waits, h.times, h.curvatures, h.mean, h.pushed, h.synced⟩
  | timer =>
    simp only [step]
    rcases syncPackages_cases s with heq | ⟨-, ⟨-, heq⟩ | ⟨-, first, rest, -, heq⟩⟩
    · rw [heq]
      exact h
    · rw [heq]
      exact unsynced_frontPushed h
    · rw [heq]
      exact unsynced_popPackage (unsynced_frontPushed h) _

theorem frontPushed_end {b : K} {s : State K β} (h : Unsynced cfg b s)
    (hlidar : s.lidarBuffer ≠ []) : b ≤ (frontPushed s).meas.lidarEndTime := by
  refine (unsynced_frontPushed h).pushed ?_
  unfold frontPushed
  split_ifs with hpushed
  · exact hpushed
  · obtain ⟨cloud, clouds, hclouds⟩ := List.exists_cons_of_ne_nil hlidar
    have hwaits := h.waits
    rw [hclouds, List.length_cons] at hwaits
    obtain ⟨begTime, times, htimes⟩ := List.exists_cons_of_ne_nil
      (List.length_pos_iff.mp (by omega : 0 < s.timeBuffer.length))
    exact (pushLidar_meas hclouds htimes).1

theorem imuCbk_synced {b : K} (hb : 0 < b) {s : State K β} (h : Unsynced cfg b s)
    (hset : s.timediffSetFlg = true) {msg : Imu β}
    (hmsg : s.timediffLidarWrtImu + getTimeSec msg.stamp < b * (nanoseconds : K)) :
    (imuCbk cfg s msg).lastTimestampImu < b := by
  obtain ⟨hen, hdiff⟩ := h.synced hset
  change (getTimeSec (restamped cfg s msg).stamp : K) < b
  unfold restamped
  rw [if_pos (by simp [hen, hdiff])]
  exact timeOfDouble_lt hb hmsg

/-- Behind every scan, for the clock of the samples is. -/
structure Starved (cfg : Config K) (b : K) (s : State K β) : Prop extends Unsynced cfg b s where
  set : s.timediffSetFlg = true
  behind : s.lastTimestampImu < b

theorem starved_step {b : K} (hb : 0 < b) {s : State K β} (h : Starved cfg b s)
    {x : Event K β} (hx : Realistic b s x) :
    Starved cfg b (step cfg s x).1 ∧ (step cfg s x).2 = none := by
  have hstep := unsynced_step h.toUnsynced hx
  cases x with
  | standardPcl stamp cloud => exact ⟨⟨hstep, h.set, h.behind⟩, rfl⟩
  | livoxPcl stamp cloud =>
    refine ⟨⟨hstep, ?_, ?_⟩, rfl⟩
    · change (selfSync cfg (clearLoopBack s (getTimeSec stamp))).timediffSetFlg = true
      rcases selfSync_set cfg (clearLoopBack s (getTimeSec stamp)) with heq | ⟨-, hset, -⟩
      · rw [heq]
        exact h.set
      · exact hset
    · exact (livoxPclCbk_lastTimestampImu s stamp cloud).trans_lt h.behind
  | imu msg => exact ⟨⟨hstep, h.set, imuCbk_synced hb h.toUnsynced h.set hx⟩, rfl⟩
  | timer =>
    simp only [step] at hstep ⊢
    rcases syncPackages_cases s with heq | ⟨hlidar, ⟨-, heq⟩ | ⟨hend, -⟩⟩
    · rw [heq] at hstep ⊢
      exact ⟨⟨hstep, h.set, h.behind⟩, rfl⟩
    · rw [heq] at hstep ⊢
      exact ⟨⟨hstep, (frontPushed_timediffSetFlg s).trans h.set,
        (frontPushed_lastTimestampImu s).trans_lt h.behind⟩, rfl⟩
    · have hfar := frontPushed_end h.toUnsynced hlidar
      exact absurd (hfar.trans hend) (not_le.mpr h.behind)

end SelfSync

end LaserMapping
end RtkLocalization
