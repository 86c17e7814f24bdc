import RtkLocalization.Lib.Callback
import RtkLocalization.PyMath

/-!
# `map_anchor_injector.py`

The node locks a heading, sends the first valid fix to the `SetDatum` service and
exits when the service has answered. Node and service are one system here: what is
outstanding is what has been sent and not answered, and an event is a message, an
answer or the shutdown timer, in any order. `datum_protocol` collects what holds in
every run. The number type is arbitrary, so the results cover the floating-point
values as they are.
-/

namespace RtkLocalization
namespace MapAnchorInjector

structure Config (α : Type) where
  useImuHeading : Bool
  headingOverride : α
  headingOffset : α
  altitudeOverride : α
  requireFix : Bool

/-- `running` is false once the node has shut down or an exception has left a
callback. -/
structure State (α : Type) where
  datumInflight : Bool
  shutdownTimer : Bool
  gpsSub : Bool
  imuSub : Bool
  warnedWaitingImu : Bool
  heading : α
  headingReady : Bool
  running : Bool

structure DatumRequest (α : Type) where
  latitude : α
  longitude : α
  altitude : α
  orientation : Quat α

/-- `NavSatStatus.STATUS_NO_FIX`. -/
def statusNoFix : ℤ := -1

inductive Event (α : Type) where
  | imu (msg : Imu α)
  | gps (msg : NavSatFix α)
  | response (success : Bool)
  | timer

structure System (α : Type) where
  node : State α
  outstanding : ℕ

section Model
variable {α : Type} [Add α] [Sub α] [Mul α] [Div α] [OfScientific α] [PyMath α] [IsFinite α] [LT α]
  [DecidableLT α]

/-! ### The node -/

/-- The two values of `navsat_transform`; absent where they could not be read. -/
def resolveHeadingFromNavsatParams : Option (Bool × α) → α
  | none => 0.0
  | some (useOdomYaw, yawOffset) => if useOdomYaw then 0.0 else yawOffset

def resolveHeadingMode (cfg : Config α) (navsat : Option (Bool × α)) : α × Bool :=
  if isfinite cfg.headingOverride then (cfg.headingOverride, true)
  else if cfg.useImuHeading then (0.0, false)
  else (resolveHeadingFromNavsatParams navsat, true)

def initial (cfg : Config α) (navsat : Option (Bool × α)) : State α :=
  let (heading, headingReady) := resolveHeadingMode cfg navsat
  { datumInflight := false
    shutdownTimer := false
    gpsSub := true
    imuSub := !headingReady && cfg.useImuHeading
    warnedWaitingImu := false
    heading := heading
    headingReady := headingReady
    running := true }

/-- The norm test is not met by NaN, which is then locked as the heading. -/
def imuCallback (cfg : Config α) (s : State α) (msg : Imu α) : State α :=
  if s.headingReady then s
  else
    let q := msg.orientation
    let norm := PyMath.sqrt (q.x * q.x + q.y * q.y + q.z * q.z + q.w * q.w)
    if norm < 1e-6 then s
    else
      let imuYaw := yawFromQuaternion ⟨q.x / norm, q.y / norm, q.z / norm, q.w / norm⟩
      { s with
        heading := imuYaw + cfg.headingOffset
        headingReady := true
        imuSub := false }

/-- `math.sin` and `math.cos` raise on an infinity. -/
def TrigRaises (x : α) : Prop := isfinite x = false ∧ (x < 0.0 ∨ 0.0 < x)

instance (x : α) : Decidable (TrigRaises x) := inferInstanceAs (Decidable (_ ∧ (_ ∨ _)))

def datumRequest (cfg : Config α) (heading latitude longitude : α) : DatumRequest α where
  latitude := latitude
  longitude := longitude
  altitude := cfg.altitudeOverride
  orientation := ⟨0.0, 0.0, PyMath.sin (heading * 0.5), PyMath.cos (heading * 0.5)⟩

/-- `_send_datum`; the flag is set before the trigonometry that can raise. -/
def sendDatum (cfg : Config α) (s : State α) (latitude longitude : α) :
    State α × Option (DatumRequest α) :=
  let s := { s with datumInflight := true }
  if TrigRaises (s.heading * 0.5) then ({ s with running := false }, none)
  else (s, some (datumRequest cfg s.heading latitude longitude))

def ValidFix (cfg : Config α) (msg : NavSatFix α) : Prop :=
  isfinite msg.latitude = true ∧ isfinite msg.longitude = true ∧
    (cfg.requireFix = false ∨ msg.status.status ≠ statusNoFix)

instance (cfg : Config α) (msg : NavSatFix α) : Decidable (ValidFix cfg msg) :=
  inferInstanceAs (Decidable (_ ∧ _ ∧ (_ ∨ _)))

def gpsCallback (cfg : Config α) (s : State α) (msg : NavSatFix α) :
    State α × Option (DatumRequest α) :=
  if s.datumInflight then (s, none)
  else if ¬ s.headingReady then ({ s with warnedWaitingImu := true }, none)
  else if ¬ ValidFix cfg msg then (s, none)
  else sendDatum cfg s msg.latitude msg.longitude

def onDatumResponse (s : State α) (success : Bool) : State α :=
  if success then { s with gpsSub := false, shutdownTimer := true }
  else { s with datumInflight := false }

def shutdown (s : State α) : State α := { s with shutdownTimer := false, running := false }

/-! ### Node and service -/

/-- A message that was taken before its subscription went is still handled, so the
callbacks run whether or not the subscription is there. -/
def step (cfg : Config α) : Callback.Step (System α) (Event α) (DatumRequest α) := fun s e =>
  if ¬ s.node.running then (s, none)
  else
    match e with
    | .imu msg => ({ s with node := imuCallback cfg s.node msg }, none)
    | .gps msg =>
      match gpsCallback cfg s.node msg with
      | (node, none) => ({ s with node := node }, none)
      | (node, some request) => (⟨node, s.outstanding + 1⟩, some request)
    | .response success =>
      if s.outstanding = 0 then (s, none)
      else (⟨onDatumResponse s.node success, s.outstanding - 1⟩, none)
    | .timer =>
      if s.node.shutdownTimer then ({ s with node := shutdown s.node }, none) else (s, none)

def start (cfg : Config α) (navsat : Option (Bool × α)) : System α := ⟨initial cfg navsat, 0⟩

end Model

/-! ### What one step can do -/

section Moves
variable {α : Type} [Mul α] [OfScientific α] [PyMath α] [IsFinite α] [LT α]

inductive Move (cfg : Config α) (s : System α) :
    Event α → System α → Option (DatumRequest α) → Prop
  | pass (e : Event α) (warned : Bool) :
      Move cfg s e { s with node := { s.node with warnedWaitingImu := warned } } none
  | lock (msg : Imu α) (heading : α) (hopen : s.node.headingReady = false) :
      Move cfg s (.imu msg)
        { s with node := { s.node with heading := heading, headingReady := true, imuSub := false } }
        none
  | stop (msg : NavSatFix α) (hready : s.node.headingReady = true)
      (hraise : TrigRaises (s.node.heading * 0.5)) :
      Move cfg s (.gps msg)
        { s with node := { s.node with datumInflight := true, running := false } } none
  | send (msg : NavSatFix α) (hrunning : s.node.running = true)
      (hfree : s.node.datumInflight = false) (hready : s.node.headingReady = true)
      (hraise : ¬ TrigRaises (s.node.heading * 0.5)) (hvalid : ValidFix cfg msg) :
      Move cfg s (.gps msg) ⟨{ s.node with datumInflight := true }, s.outstanding + 1⟩
        (some (datumRequest cfg s.node.heading msg.latitude msg.longitude))
  | answer (success : Bool) (hout : s.outstanding ≠ 0) :
      Move cfg s (.response success) ⟨onDatumResponse s.node success, s.outstanding - 1⟩ none
  | shutdown (htimer : s.node.shutdownTimer = true) :
      Move cfg s .timer { s with node := shutdown s.node } none

theorem Move.ready {cfg : Config α} {s s' : System α} {e : Event α} {r : DatumRequest α}
    (h : Move cfg s e s' (some r)) : s.node.headingReady = true := by
  cases h with
  | send msg _ _ hready _ _ => exact hready

theorem gpsCallback_move [DecidableLT α] (cfg : Config α) (s : System α)
    (hrunning : s.node.running = true) (msg : NavSatFix α) :
    Move cfg s (.gps msg)
      ⟨(gpsCallback cfg s.node msg).1,
        s.outstanding + (gpsCallback cfg s.node msg).2.toList.length⟩
      (gpsCallback cfg s.node msg).2 := by
  unfold gpsCallback
  split_ifs with hflight hready hvalid
  · exact .pass _ s.node.warnedWaitingImu
  · unfold sendDatum
    simp only
    split_ifs with hraise
    · exact .stop msg hready hraise
    · exact .send msg hrunning (by simpa using hflight) hready hraise hvalid
  · exact .pass _ s.node.warnedWaitingImu
  · exact .pass _ true

variable [Add α] [Sub α] [Div α] [DecidableLT α]

theorem imuCallback_move (cfg : Config α) (s : System α) (msg : Imu α) :
    Move cfg s (.imu msg) { s with node := imuCallback cfg s.node msg } none := by
  unfold imuCallback
  split_ifs with hready
  · exact .pass _ s.node.warnedWaitingImu
  · simp only
    split_ifs
    · exact .pass _ s.node.warnedWaitingImu
    · exact .lock msg _ (by simpa using hready)

theorem step_move (cfg : Config α) (s : System α) (e : Event α) :
    Move cfg s e (step cfg s e).1 (step cfg s e).2 := by
  by_cases hrunning : s.node.running = true
  · cases e with
    | imu msg =>
      rw [step, if_neg (not_not.mpr hrunning)]
      exact imuCallback_move cfg s msg
    | gps msg =>
      have hmove := gpsCallback_move cfg s hrunning msg
      rw [step, if_neg (not_not.mpr hrunning)]
      split
      · rename_i node hgps
        rw [hgps] at hmove
        exact hmove
      · rename_i node request hgps
        rw [hgps] at hmove
        exact hmove
    | response success =>
      rw [step, if_neg (not_not.mpr hrunning)]
      split_ifs with hout
      · exact .pass _ s.node.warnedWaitingImu
      · exact .answer success hout
    | timer =>
      rw [step, if_neg (not_not.mpr hrunning)]
      split_ifs with htimer
      · exact .shutdown htimer
      · exact .pass _ s.node.warnedWaitingImu
  · unfold step
    rw [if_pos hrunning]
    exact .pass _ s.node.warnedWaitingImu

end Moves

/-! ### Invariants -/

/-- A request is out: the node can take the answer, whichever it is. -/
structure Waiting {α : Type} [Mul α] [OfScientific α] [IsFinite α] [LT α] (s : State α) : Prop where
  inflight : s.datumInflight = true
  running : s.running = true
  timer : s.shutdownTimer = false
  ready : s.headingReady = true
  sendable : ¬ TrigRaises (s.heading * 0.5)

/-- After a failed answer: nothing is out and the next valid fix will be sent. -/
structure Retrying {α : Type} [Mul α] [OfScientific α] [IsFinite α] [LT α] (heading : α)
    (s : System α) : Prop where
  none_out : s.outstanding = 0
  free : s.node.datumInflight = false
  running : s.node.running = true
  timer : s.node.shutdownTimer = false
  ready : s.node.headingReady = true
  locked : s.node.heading = heading
  sendable : ¬ TrigRaises (heading * 0.5)

/-- After a successful answer. -/
structure Injected {α : Type} (s : System α) : Prop where
  none_out : s.outstanding = 0
  inflight : s.node.datumInflight = true

section Invariants
variable {α : Type} [Mul α] [OfScientific α] [PyMath α] [IsFinite α] [LT α]

structure Inv (cfg : Config α) (events : List (Event α)) (sent : List (DatumRequest α))
    (s : System α) : Prop where
  one : s.outstanding ≤ 1
  waiting : 0 < s.outstanding → Waiting s.node
  timer : s.node.shutdownTimer = true → s.node.datumInflight = true
  ready : sent ≠ [] → s.node.headingReady = true
  requests : ∀ r ∈ sent, ∃ msg, .gps msg ∈ events ∧ ValidFix cfg msg ∧
    r = datumRequest cfg s.node.heading msg.latitude msg.longitude

section Consequences
variable {cfg : Config α} {events : List (Event α)} {sent : List (DatumRequest α)} {s : System α}

theorem Inv.idle (h : Inv cfg events sent s) (hfree : s.node.datumInflight = false) :
    s.outstanding = 0 ∧ s.node.shutdownTimer = false := by
  constructor
  · by_contra hpos
    rw [(h.waiting (Nat.pos_of_ne_zero hpos)).inflight] at hfree
    cases hfree
  · by_contra htimer
    rw [h.timer (by simpa using htimer)] at hfree
    cases hfree

theorem Inv.nothing_sent (h : Inv cfg events sent s) (hopen : s.node.headingReady = false) :
    sent = [] ∧ s.outstanding = 0 := by
  constructor
  · by_contra hne
    rw [h.ready hne] at hopen
    cases hopen
  · by_contra hpos
    rw [(h.waiting (Nat.pos_of_ne_zero hpos)).ready] at hopen
    cases hopen

theorem Inv.requests_append (h : Inv cfg events sent s) (e : Event α) :
    ∀ r ∈ sent, ∃ msg, .gps msg ∈ events ++ [e] ∧ ValidFix cfg msg ∧
      r = datumRequest cfg s.node.heading msg.latitude msg.longitude := by
  intro r hr
  obtain ⟨msg, hmem, hmsg⟩ := h.requests r hr
  exact ⟨msg, List.mem_append_left [e] hmem, hmsg⟩

end Consequences

theorem inv_move {cfg : Config α} {events : List (Event α)} {sent : List (DatumRequest α)}
    {s s' : System α} {e : Event α} {out : Option (DatumRequest α)} (h : Inv cfg events sent s)
    (hmove : Move cfg s e s' out) : Inv cfg (events ++ [e]) (sent ++ out.toList) s' := by
  have hrequests := h.requests_append e
  cases hmove with
  | pass e warned =>
    rw [Option.toList_none, List.append_nil]
    refine ⟨h.one, ?_, h.timer, h.ready, hrequests⟩
    intro hpos
    obtain ⟨hflight, hrunning, htimer, hready, hsend⟩ := h.waiting hpos
    exact ⟨hflight, hrunning, htimer, hready, hsend⟩
  | lock msg heading hopen =>
    -- the heading is not locked a second time, so no request can carry the old one
    obtain ⟨hnil, hzero⟩ := h.nothing_sent hopen
    rw [Option.toList_none, List.append_nil, hnil, hzero]
    exact ⟨Nat.zero_le 1, nofun, h.timer, nofun, nofun⟩
  | stop msg hready hraise =>
    rw [Option.toList_none, List.append_nil]
    refine ⟨h.one, ?_, fun _ => rfl, fun _ => hready, hrequests⟩
    intro hpos
    exact absurd hraise (h.waiting hpos).sendable
  | send msg hrunning hfree hready hraise hvalid =>
    obtain ⟨hzero, htimer⟩ := h.idle hfree
    rw [hzero]
    refine ⟨le_rfl, fun _ => ⟨rfl, hrunning, htimer, hready, hraise⟩, fun _ => rfl, fun _ => hready,
      ?_⟩
    intro r hr
    rcases List.mem_append.mp hr with hr | hr
    · exact hrequests r hr
    · rw [Option.toList_some, List.mem_singleton] at hr
      exact ⟨msg, by simp, hvalid, hr⟩
  | answer success hout =>
    obtain ⟨hflight, hrunning, htimer, hready, hsend⟩ := h.waiting (Nat.pos_of_ne_zero hout)
    have hzero : s.outstanding - 1 = 0 := by
      have hone := h.one
      omega
    rw [Option.toList_none, List.append_nil, hzero]
    cases success with
    | true => exact ⟨Nat.zero_le 1, nofun, fun _ => hflight, fun _ => hready, hrequests⟩
    | false =>
      refine ⟨Nat.zero_le 1, nofun, ?_, fun _ => hready, hrequests⟩
      intro htrue
      rw [show s.node.shutdownTimer = true from htrue] at htimer
      cases htimer
  | shutdown htimer =>
    rw [Option.toList_none, List.append_nil]
    refine ⟨h.one, ?_, nofun, h.ready, hrequests⟩
    intro hpos
    rw [(h.waiting hpos).timer] at htimer
    cases htimer

theorem retrying_move {cfg : Config α} {heading : α} {s s' : System α} {e : Event α}
    {out : Option (DatumRequest α)} (h : Retrying heading s)
    (hinvalid : ∀ msg, e = .gps msg → ¬ ValidFix cfg msg) (hmove : Move cfg s e s' out) :
    Retrying heading s' := by
  obtain ⟨hzero, hfree, hrunning, htimer, hready, hlocked, hsend⟩ := h
  cases hmove with
  | pass e warned => exact ⟨hzero, hfree, hrunning, htimer, hready, hlocked, hsend⟩
  | lock msg heading hopen =>
    rw [hready] at hopen
    cases hopen
  | stop msg _ hraise =>
    rw [hlocked] at hraise
    exact absurd hraise hsend
  | send msg _ _ _ _ hvalid => exact absurd hvalid (hinvalid msg rfl)
  | answer success hout => exact absurd hzero hout
  | shutdown hset =>
    rw [htimer] at hset
    cases hset

theorem injected_move {cfg : Config α} {s s' : System α} {e : Event α}
    {out : Option (DatumRequest α)} (h : Injected s) (hmove : Move cfg s e s' out) :
    Injected s' ∧ out = none := by
  obtain ⟨hzero, hflight⟩ := h
  cases hmove with
  | pass e warned => exact ⟨⟨hzero, hflight⟩, rfl⟩
  | lock msg heading hopen => exact ⟨⟨hzero, hflight⟩, rfl⟩
  | stop msg _ hraise => exact ⟨⟨hzero, rfl⟩, rfl⟩
  | send msg _ hfree _ _ hvalid =>
    rw [hflight] at hfree
    cases hfree
  | answer success hout => exact absurd hzero hout
  | shutdown hset => exact ⟨⟨hzero, hflight⟩, rfl⟩

end Invariants

/-! ### Runs -/

section Runs
variable {α : Type} [Add α] [Sub α] [Mul α] [Div α] [OfScientific α] [PyMath α] [IsFinite α] [LT α]
  [DecidableLT α]

theorem inv_run (cfg : Config α) (navsat : Option (Bool × α)) (events : List (Event α)) :
    Inv cfg events (Callback.published (step cfg) (start cfg navsat) events)
      (Callback.stateAfter (step cfg) (start cfg navsat) events) := by
  induction events using List.reverseRecOn with
  | nil => exact ⟨Nat.zero_le 1, nofun, nofun, fun hne => absurd rfl hne, nofun⟩
  | append_singleton events e ih =>
    rw [Callback.stateAfter_append, Callback.published_append_singleton]
    exact inv_move ih (step_move cfg _ e)

theorem retrying_after_failure (cfg : Config α) {s : System α} (hone : s.outstanding ≤ 1)
    (hout : 0 < s.outstanding) (h : Waiting s.node) :
    Retrying s.node.heading (step cfg s (.response false)).1 := by
  obtain ⟨-, hrunning, htimer, hready, hsend⟩ := h
  have hzero : s.outstanding - 1 = 0 := by omega
  rw [step, if_neg (not_not.mpr hrunning), if_neg hout.ne']
  exact ⟨hzero, rfl, hrunning, htimer, hready, rfl, hsend⟩

theorem retrying_run (cfg : Config α) {heading : α} {s : System α} (h : Retrying heading s)
    (events : List (Event α)) (hinvalid : ∀ msg, .gps msg ∈ events → ¬ ValidFix cfg msg) :
    Retrying heading (Callback.stateAfter (step cfg) s events) := by
  induction events generalizing s with
  | nil => exact h
  | cons e events ih =>
    refine ih (retrying_move h ?_ (step_move cfg s e)) ?_
    · rintro msg rfl
      exact hinvalid msg List.mem_cons_self
    · intro msg hmem
      exact hinvalid msg (List.mem_cons_of_mem e hmem)

theorem retrying_sends (cfg : Config α) {heading : α} {s : System α} (h : Retrying heading s)
    {msg : NavSatFix α} (hvalid : ValidFix cfg msg) :
    (step cfg s (.gps msg)).2 = some (datumRequest cfg heading msg.latitude msg.longitude) := by
  obtain ⟨-, hfree, hrunning, -, hready, rfl, hsend⟩ := h
  have hgps : gpsCallback cfg s.node msg = ({ s.node with datumInflight := true },
      some (datumRequest cfg s.node.heading msg.latitude msg.longitude)) := by
    rw [gpsCallback, hfree, if_neg Bool.false_ne_true, if_neg (not_not.mpr hready),
      if_neg (not_not.mpr hvalid), sendDatum]
    exact if_neg hsend
  rw [step, if_neg (not_not.mpr hrunning)]
  simp only [hgps]

theorem injected_run (cfg : Config α) {s : System α} (h : Injected s) (events : List (Event α)) :
    Callback.published (step cfg) s events = [] := by
  induction events generalizing s with
  | nil => rfl
  | cons e events ih =>
    obtain ⟨hnext, hnone⟩ := injected_move h (step_move cfg s e)
    rw [Callback.published_cons_none (step cfg) events hnone]
    exact ih hnext

theorem injected_after_success (cfg : Config α) {s : System α} (hone : s.outstanding ≤ 1)
    (hout : 0 < s.outstanding) (h : Waiting s.node) :
    Injected (step cfg s (.response true)).1 := by
  have hzero : s.outstanding - 1 = 0 := by omega
  rw [step, if_neg (not_not.mpr h.running), if_neg hout.ne']
  exact ⟨hzero, h.inflight⟩

/-- In every run: at most one request is outstanding, none is sent before the
heading is locked, all carry that heading and the position of a valid fix, the next
valid fix after a failed answer is sent, and nothing after a successful one. -/
theorem datum_protocol (cfg : Config α) (navsat : Option (Bool × α)) (events : List (Event α)) :
    let s := Callback.stateAfter (step cfg) (start cfg navsat) events
    let sent := Callback.published (step cfg) (start cfg navsat) events
    s.outstanding ≤ 1 ∧
    (∀ e r, (step cfg s e).2 = some r → s.node.headingReady = true) ∧
    (∀ r ∈ sent, ∀ r' ∈ sent, r.orientation = r'.orientation) ∧
    (∀ r ∈ sent, ∃ msg, .gps msg ∈ events ∧ ValidFix cfg msg ∧
      r = datumRequest cfg s.node.heading msg.latitude msg.longitude) ∧
    (0 < s.outstanding → ∀ events' msg, (∀ msg', .gps msg' ∈ events' → ¬ ValidFix cfg msg') →
      ValidFix cfg msg →
      (step cfg (Callback.stateAfter (step cfg) s (.response false :: events')) (.gps msg)).2
        = some (datumRequest cfg s.node.heading msg.latitude msg.longitude)) ∧
    (0 < s.outstanding → ∀ events',
      Callback.published (step cfg) (step cfg s (.response true)).1 events' = []) := by
  intro s sent
  have hinv : Inv cfg events sent s := inv_run cfg navsat events
  refine ⟨hinv.one, ?_, ?_, hinv.requests, ?_, ?_⟩
  · intro e r hsome
    have hmove := step_move cfg s e
    rw [hsome] at hmove
    exact hmove.ready
  · intro r hr r' hr'
    obtain ⟨msg, -, -, rfl⟩ := hinv.requests r hr
    obtain ⟨msg', -, -, rfl⟩ := hinv.requests r' hr'
    rfl
  · intro hout events' msg hinvalid hvalid
    have hretry := retrying_after_failure cfg hinv.one hout (hinv.waiting hout)
    exact retrying_sends cfg (retrying_run cfg hretry events' hinvalid) hvalid
  · intro hout events'
    exact injected_run cfg (injected_after_success cfg hinv.one hout (hinv.waiting hout)) events'

end Runs

end MapAnchorInjector
end RtkLocalization
