import RtkLocalization.RosFilterQueue
import RtkLocalization.Lib.NewestFirst

/-!
# Lagged data

With `smooth_lagged_data` the node answers a late measurement by going back to a saved
state and handling again all that came after. What this is for: the filter ends up as if
the measurements had arrived in order of time. Here `replay` is that filter, and
`Replayed` says how the two deques relate to it.
-/

namespace RtkLocalization
namespace RosFilter

open FilterBase TimedQueue

variable {T κ β γ Q : Type}

/-! ### The filter that has had its measurements in order -/

section Replay
variable (k : Kernel κ β γ)

def replay (f : Filter κ γ) (ms : List (Measurement β γ)) : Filter κ γ :=
  ms.foldl (processMeasurement k) f

def snapshot (f : Filter κ γ) : FilterState κ := ⟨f.estimate, f.lastMeasurementTime⟩

def InOrder (ms : List (Measurement β γ)) : Prop := ms.Pairwise fun m m' => m.time ≤ m'.time

def upTo (ms : List (Measurement β γ)) (time : ℤ) : List (Measurement β γ) :=
  ms.filter fun m => m.time ≤ time

theorem replay_append_singleton (f : Filter κ γ) (ms : List (Measurement β γ))
    (m : Measurement β γ) : replay k f (ms ++ [m]) = processMeasurement k (replay k f ms) m := by
  unfold replay
  rw [List.foldl_append]
  rfl

theorem replay_control (f : Filter κ γ) (ms : List (Measurement β γ)) :
    (replay k f ms).control = f.control := by
  induction ms using List.reverseRecOn with
  | nil => rfl
  | append_singleton ms m ih =>
    rw [replay_append_singleton, processMeasurement_control, ih]

theorem replay_initialized (f : Filter κ γ) {ms : List (Measurement β γ)} (h : ms ≠ []) :
    (replay k f ms).initialized = true := by
  induction ms using List.reverseRecOn with
  | nil => exact absurd rfl h
  | append_singleton ms m ih =>
    rw [replay_append_singleton, processMeasurement_initialized]

theorem InOrder.le_last {ms : List (Measurement β γ)} {m : Measurement β γ}
    (h : InOrder (ms ++ [m])) : ∀ a ∈ ms, a.time ≤ m.time :=
  fun a ha => (List.pairwise_append.mp h).2.2 a ha m (List.mem_singleton_self m)

/-- The filter has the time of its last measurement. -/
theorem replay_time {f : Filter κ γ} (hf : f.initialized = false) {ms : List (Measurement β γ)}
    {m : Measurement β γ} (h : InOrder (ms ++ [m])) :
    (replay k f (ms ++ [m])).lastMeasurementTime = m.time := by
  induction ms using List.reverseRecOn generalizing m with
  | nil =>
    rw [replay_append_singleton, processMeasurement_time]
    exact if_neg (Bool.eq_false_iff.mp hf)
  | append_singleton ms a ih =>
    have hle := h.le_last a (List.mem_append_right ms (List.mem_singleton_self a))
    have htime := ih (List.pairwise_append.mp h).1
    rw [replay_append_singleton, processMeasurement_time,
      if_pos (replay_initialized k f (List.append_ne_nil_of_right_ne_nil ms (by simp))), htime]
    exact max_eq_right hle

theorem le_replay_time {f : Filter κ γ} (hf : f.initialized = false)
    {ms : List (Measurement β γ)} (h : InOrder ms) :
    ∀ a ∈ ms, a.time ≤ (replay k f ms).lastMeasurementTime := by
  induction ms using List.reverseRecOn with
  | nil => exact fun a ha => absurd ha List.not_mem_nil
  | append_singleton ms m ih =>
    rw [replay_time k hf h]
    intro a ha
    rcases List.mem_append.mp ha with ha | ha
    · exact h.le_last a ha
    · rw [List.mem_singleton.mp ha]

theorem upTo_append (ms ms' : List (Measurement β γ)) (time : ℤ) :
    upTo (ms ++ ms') time = upTo ms time ++ upTo ms' time := List.filter_append ms ms'

theorem upTo_of_le {ms : List (Measurement β γ)} {time : ℤ} (h : ∀ m ∈ ms, m.time ≤ time) :
    upTo ms time = ms :=
  List.filter_eq_self.mpr fun m hm => decide_eq_true (h m hm)

theorem upTo_of_lt {ms : List (Measurement β γ)} {time : ℤ} (h : ∀ m ∈ ms, time < m.time) :
    upTo ms time = [] :=
  List.filter_eq_nil_iff.mpr fun m hm => by simpa using h m hm

theorem upTo_upTo (ms : List (Measurement β γ)) (time time' : ℤ) :
    upTo (upTo ms time) time' = upTo ms (min time time') := by
  unfold upTo
  rw [List.filter_filter]
  apply List.filter_congr
  intro m _
  simp only [le_min_iff, Bool.decide_and, Bool.and_comm]

end Replay

/-! ### The deques -/

section Replayed
variable {cfg : Config κ} {k : Kernel κ β γ} {P : MeasurementQueue β γ Q} {f₀ : Filter κ γ}

/-- Going back to `time` finds the filter as it was with the measurements up to there. -/
def SavedAt (k : Kernel κ β γ) (f₀ : Filter κ γ) (ms : List (Measurement β γ))
    (history : List (FilterState κ)) (time : ℤ) : Prop :=
  ∀ st rest, history.dropWhile (fun st => time < st.lastMeasurementTime) = st :: rest →
    upTo ms time ≠ [] ∧ st = snapshot (replay k f₀ (upTo ms time))

/-- The filter has replayed `ms`, of which the node still has those that are not before its
oldest saved state. The states saved before the times where `saved` holds are those of `ms`. -/
structure Replayed (k : Kernel κ β γ) (f₀ : Filter κ γ) (saved : ℤ → Prop)
    (ms : List (Measurement β γ)) (s : State T κ β γ Q) : Prop where
  inOrder : InOrder ms
  filter : s.filter = replay k f₀ ms
  handled : ∃ old, ms = old ++ s.measurementHistory.reverse ∧
    ∀ m ∈ old, m.time < s.filter.lastMeasurementTime ∧
      ∀ st ∈ s.filterStateHistory, m.time < st.lastMeasurementTime
  savedAt : ∀ time, saved time → SavedAt k f₀ ms s.filterStateHistory time
  newestFirst : NewestFirst FilterState.lastMeasurementTime s.filterStateHistory
  notAfter : ms ≠ [] → ∀ st ∈ s.filterStateHistory,
    st.lastMeasurementTime ≤ s.filter.lastMeasurementTime
  unsaved : ms = [] → s.filterStateHistory = []

theorem controlled_eq (hcontrol : cfg.useControl = false) (f : Filter κ γ) (restored : ℕ)
    (m : Measurement β γ) : controlled cfg f restored m = f := by
  unfold controlled fromHistory
  rw [hcontrol]
  rfl

theorem dropWhile_cons_of_le {history : List (FilterState κ)} {st : FilterState κ} {time : ℤ}
    (h : st.lastMeasurementTime ≤ time) :
    (st :: history).dropWhile (fun st => time < st.lastMeasurementTime) = st :: history := by
  rw [List.dropWhile_cons, if_neg]
  simpa using h

theorem dropWhile_cons_of_lt {history : List (FilterState κ)} {st : FilterState κ} {time : ℤ}
    (h : time < st.lastMeasurementTime) :
    (st :: history).dropWhile (fun st => time < st.lastMeasurementTime)
      = history.dropWhile fun st => time < st.lastMeasurementTime := by
  rw [List.dropWhile_cons, if_pos]
  simpa using h

theorem SavedAt.append {ms : List (Measurement β γ)} {history : List (FilterState κ)}
    {m : Measurement β γ} {time : ℤ} (h : SavedAt k f₀ ms history time) (hm : time < m.time) :
    SavedAt k f₀ (ms ++ [m]) history time := by
  have hnone : upTo [m] time = [] := upTo_of_lt (by simpa using hm)
  unfold SavedAt
  rw [upTo_append, hnone, List.append_nil]
  exact h

theorem SavedAt.push (hf : f₀.initialized = false) {ms : List (Measurement β γ)}
    {history : List (FilterState κ)} {m : Measurement β γ} (hordered : InOrder (ms ++ [m]))
    (h : ∀ time < m.time, SavedAt k f₀ ms history time) (time : ℤ) :
    SavedAt k f₀ (ms ++ [m]) (snapshot (replay k f₀ (ms ++ [m])) :: history) time := by
  have htime : (snapshot (replay k f₀ (ms ++ [m]))).lastMeasurementTime = m.time :=
    replay_time k hf hordered
  intro st rest hdrop
  rcases le_or_gt m.time time with hle | hlt
  · rw [dropWhile_cons_of_le (htime.trans_le hle)] at hdrop
    have hall : upTo (ms ++ [m]) time = ms ++ [m] := by
      apply upTo_of_le
      intro a ha
      rcases List.mem_append.mp ha with ha | ha
      · exact (hordered.le_last a ha).trans hle
      · rwa [List.mem_singleton.mp ha]
    rw [hall]
    exact ⟨by simp, (List.cons.inj hdrop).1.symm⟩
  · rw [dropWhile_cons_of_lt (hlt.trans_eq htime.symm)] at hdrop
    exact (h time hlt).append hlt st rest hdrop

theorem Replayed.le_time {saved : ℤ → Prop} {ms : List (Measurement β γ)} {s : State T κ β γ Q}
    (hs : Replayed k f₀ saved ms s) (hf : f₀.initialized = false) :
    ∀ a ∈ ms, a.time ≤ s.filter.lastMeasurementTime := by
  rw [hs.filter]
  exact le_replay_time k hf hs.inOrder

/-- Where all measurements are before `time`, so is the filter, once it has had one. -/
theorem Replayed.time_le {saved : ℤ → Prop} {ms : List (Measurement β γ)} {s : State T κ β γ Q}
    (hs : Replayed k f₀ saved ms s) (hf : f₀.initialized = false) (hne : ms ≠ []) {time : ℤ}
    (h : ∀ a ∈ ms, a.time ≤ time) : s.filter.lastMeasurementTime ≤ time := by
  obtain ⟨ms', m, rfl⟩ := ms.eq_nil_or_concat'.resolve_left hne
  rw [hs.filter, replay_time k hf hs.inOrder]
  exact h m (List.mem_append_right ms' (List.mem_singleton_self m))

/-- One turn of the loop. A state is saved after the last measurement of its time: until
then the states up to that time are not those of the measurements. -/
theorem handle_replayed (hsmooth : cfg.smoothLaggedData = true) (hcontrol : cfg.useControl = false)
    (hf : f₀.initialized = false) {ms : List (Measurement β γ)} {x : State T κ β γ Q × ℕ}
    {m : Measurement β γ} (hs : Replayed k f₀ (· < m.time) ms x.1)
    (hm : ∀ a ∈ ms, a.time ≤ m.time) (rest : Q) :
    Replayed k f₀ (fun time => lastOfItsTime P rest m.time = true ∨ time < m.time) (ms ++ [m])
      (handle cfg k P x m rest).1 := by
  have hordered : InOrder (ms ++ [m]) := by
    refine List.pairwise_append.mpr ⟨hs.inOrder, List.pairwise_singleton _ m, ?_⟩
    intro a ha b hb
    rw [List.mem_singleton.mp hb]
    exact hm a ha
  have hfilter : processMeasurement k (controlled cfg x.1.filter x.2 m) m
      = replay k f₀ (ms ++ [m]) := by
    rw [controlled_eq hcontrol, hs.filter, replay_append_singleton]
  have htime := replay_time k hf hordered
  have hne : ms ++ [m] ≠ [] := by simp
  obtain ⟨old, hold, hbefore⟩ := hs.handled
  have hearlier : ∀ a ∈ old, a.time < m.time := by
    intro a ha
    have hmem : a ∈ ms := hold ▸ List.mem_append_left _ ha
    exact (hbefore a ha).1.trans_le (hs.time_le hf (List.ne_nil_of_mem hmem) hm)
  have hsavedBefore : ∀ st ∈ x.1.filterStateHistory, st.lastMeasurementTime ≤ m.time := by
    intro st hst
    have hms : ms ≠ [] := fun h => by
      rw [hs.unsaved h] at hst
      exact absurd hst List.not_mem_nil
    exact (hs.notAfter hms st hst).trans (hs.time_le hf hms hm)
  unfold handle
  dsimp only
  rw [hfilter, if_pos hsmooth, htime]
  have hhandled : ms ++ [m] = old ++ (m :: x.1.measurementHistory).reverse := by
    rw [hold, List.append_assoc, List.reverse_cons]
  cases lastOfItsTime P rest m.time with
  | false =>
    refine ⟨hordered, rfl, ⟨old, hhandled, ?_⟩, ?_, hs.newestFirst, ?_, fun h => absurd h hne⟩
    · intro a ha
      exact ⟨(hearlier a ha).trans_eq htime.symm, (hbefore a ha).2⟩
    · rintro time (hlast | hlt)
      · exact absurd hlast Bool.false_ne_true
      · exact (hs.savedAt time hlt).append hlt
    · intro _ st hst
      exact (hsavedBefore st hst).trans_eq htime.symm
  | true =>
    refine ⟨hordered, rfl, ⟨old, hhandled, ?_⟩, ?_, ?_, ?_, fun h => absurd h hne⟩
    · intro a ha
      refine ⟨(hearlier a ha).trans_eq htime.symm, ?_⟩
      exact List.forall_mem_cons.mpr ⟨hearlier a ha, (hbefore a ha).2⟩
    · intro time _
      have hpush := SavedAt.push hf hordered hs.savedAt time
      rwa [snapshot, htime] at hpush
    · exact List.pairwise_cons.mpr ⟨hsavedBefore, hs.newestFirst⟩
    · intro _
      exact List.forall_mem_cons.mpr
        ⟨htime.symm.le, fun st hst => (hsavedBefore st hst).trans_eq htime.symm⟩

theorem Replayed.mono {saved saved' : ℤ → Prop} {ms : List (Measurement β γ)}
    {s : State T κ β γ Q} (hs : Replayed k f₀ saved ms s) (h : ∀ time, saved' time → saved time) :
    Replayed k f₀ saved' ms s :=
  { hs with savedAt := fun time htime => hs.savedAt time (h time htime) }

theorem pop_of_not_lastOfItsTime {rest : Q} {time : ℤ}
    (h : lastOfItsTime P rest time = false) :
    ∃ m r, P.pop rest = some (m, r) ∧ m.time = time := by
  unfold lastOfItsTime at h
  cases hpop : P.pop rest with
  | none =>
    rw [hpop] at h
    exact absurd h.symm Bool.false_ne_true
  | some x =>
    rw [hpop] at h
    exact ⟨x.1, x.2, rfl, by simpa using h⟩

/-- The loop. It does not stop between measurements of one time, so at its end all
states are saved again. -/
theorem drain_replayed (hsmooth : cfg.smoothLaggedData = true) (hcontrol : cfg.useControl = false)
    (hf : f₀.initialized = false) (now : ℤ) {n : ℕ} {q : Q} (hsize : P.size q ≤ n)
    {saved : ℤ → Prop} {ms : List (Measurement β γ)} {x : State T κ β γ Q × ℕ}
    (hs : Replayed k f₀ saved ms x.1)
    (hsaved : (∀ time, saved time) ∨
      ∃ m r, P.pop q = some (m, r) ∧ m.time ≤ now ∧ ∀ time < m.time, saved time)
    (hqueue : ∀ a ∈ ms, ∀ b ∈ P.elems q, a.time ≤ b.time) :
    Replayed k f₀ (fun _ => True) (ms ++ (due P now n q).map Prod.fst)
      (drain P now (handle cfg k P) n q x).2.1 := by
  induction n generalizing q saved ms x with
  | zero =>
    have hpop : P.pop q = none :=
      (P.pop_eq_none_iff q).mpr (Multiset.card_eq_zero.mp (Nat.le_zero.mp hsize))
    rcases hsaved with hall | ⟨m, r, hsome, -⟩
    · rw [due, List.map_nil, List.append_nil]
      exact hs.mono fun time _ => hall time
    · exact absurd (hpop.symm.trans hsome) (by simp)
  | succ n ih =>
    unfold drain due
    cases hpop : P.pop q with
    | none =>
      rcases hsaved with hall | ⟨m, r, hsome, -⟩
      · rw [List.map_nil, List.append_nil]
        exact hs.mono fun time _ => hall time
      · exact absurd (hpop.symm.trans hsome) (by simp)
    | some y =>
      obtain ⟨m, r⟩ := y
      obtain ⟨hq, hfirst⟩ := P.pop_some q m r hpop
      dsimp only
      split_ifs with hlater
      · rcases hsaved with hall | ⟨m', r', hsome, hdue, -⟩
        · rw [List.map_nil, List.append_nil]
          exact hs.mono fun time _ => hall time
        · obtain ⟨rfl, rfl⟩ := Prod.mk.inj (Option.some.inj (hpop.symm.trans hsome))
          exact absurd hdue (not_le.mpr hlater)
      · have hbefore : ∀ time < m.time, saved time := by
          rcases hsaved with hall | ⟨m', r', hsome, -, hall⟩
          · exact fun time _ => hall time
          · obtain ⟨rfl, rfl⟩ := Prod.mk.inj (Option.some.inj (hpop.symm.trans hsome))
            exact hall
        have hm : ∀ a ∈ ms, a.time ≤ m.time := by
          intro a ha
          exact hqueue a ha m (hq ▸ Multiset.mem_cons_self m _)
        have hturn := handle_replayed hsmooth hcontrol hf (hs.mono hbefore) hm r (P := P)
        have hcard : P.size q = P.size r + 1 := by
          rw [Queue.size, hq, Multiset.card_cons]
          rfl
        have hr : P.size r ≤ n := by omega
        rw [List.map_cons, List.append_cons]
        refine ih hr hturn ?_ ?_
        · cases hlast : lastOfItsTime P r m.time with
          | true => exact Or.inl fun time => Or.inl rfl
          | false =>
            obtain ⟨m', r', hsome, htime⟩ := pop_of_not_lastOfItsTime hlast
            refine Or.inr ⟨m', r', hsome, htime.trans_le (not_lt.mp hlater), ?_⟩
            exact fun time hlt => Or.inr (hlt.trans_eq htime)
        · intro a ha b hb
          rcases List.mem_append.mp ha with ha | ha
          · exact hqueue a ha b (hq ▸ Multiset.mem_cons_of_mem hb)
          · rw [List.mem_singleton.mp ha]
            exact hfirst b hb

theorem Replayed.handled_newestFirst {saved : ℤ → Prop} {ms : List (Measurement β γ)}
    {s : State T κ β γ Q} (hs : Replayed k f₀ saved ms s) :
    NewestFirst Measurement.time s.measurementHistory := by
  obtain ⟨old, hold, -⟩ := hs.handled
  have hordered := hs.inOrder
  rw [hold] at hordered
  exact List.pairwise_reverse.mp (List.pairwise_append.mp hordered).2.1

theorem Replayed.restored {saved : ℤ → Prop} {ms ms' : List (Measurement β γ)}
    {s : State T κ β γ Q} (hs : Replayed k f₀ saved ms s) (hne : ms ≠ []) (hne' : ms' ≠ [])
    {st : FilterState κ} (hst : st = snapshot (replay k f₀ ms')) :
    { s.filter with estimate := st.estimate, lastMeasurementTime := st.lastMeasurementTime }
      = replay k f₀ ms' := by
  have hinit : s.filter.initialized = (replay k f₀ ms').initialized := by
    rw [hs.filter, replay_initialized k f₀ hne, replay_initialized k f₀ hne']
  have hcontrol : s.filter.control = (replay k f₀ ms').control := by
    rw [hs.filter, replay_control, replay_control]
  subst hst
  dsimp only
  rw [hinit, hcontrol]
  rfl

theorem saved_of_reach {ms : List (Measurement β γ)} {s : State T κ β γ Q}
    (hs : Replayed k f₀ (fun _ => True) ms s) {time : ℤ}
    (hreach : ∃ st ∈ s.filterStateHistory, st.lastMeasurementTime ≤ time) :
    upTo ms time ≠ [] ∧ ∃ rest,
      (s.filterStateHistory.filter fun st => st.lastMeasurementTime ≤ time)
        = snapshot (replay k f₀ (upTo ms time)) :: rest := by
  have hkept := hs.newestFirst.dropWhile_eq_filter time
  obtain ⟨st, rest, hdrop⟩ : ∃ st rest,
      (s.filterStateHistory.dropWhile fun st => time < st.lastMeasurementTime) = st :: rest := by
    apply List.exists_cons_of_ne_nil
    rw [hkept]
    intro hnil
    obtain ⟨st, hst, hle⟩ := hreach
    exact absurd (decide_eq_true hle) (List.filter_eq_nil_iff.mp hnil st hst)
  obtain ⟨hne, hst⟩ := hs.savedAt time trivial st rest hdrop
  exact ⟨hne, rest, by rw [← hkept, hdrop, hst]⟩

/-- Back to a time that the history reaches: what is handled again is what came after. -/
theorem revertTo_eq {ms : List (Measurement β γ)} {s : State T κ β γ Q}
    (hs : Replayed k f₀ (fun _ => True) ms s) {time : ℤ}
    (hreach : ∃ st ∈ s.filterStateHistory, st.lastMeasurementTime ≤ time) :
    revertTo P s time =
      { s with
        filterStateHistory := s.filterStateHistory.filter fun st => st.lastMeasurementTime ≤ time
        filter := replay k f₀ (upTo ms time)
        measurementHistory := upTo s.measurementHistory time
        measurementQueue :=
          (s.measurementHistory.takeWhile fun m => time < m.time).foldl (fun q m => P.push m q)
            s.measurementQueue } := by
  obtain ⟨hne, rest, hrest⟩ := saved_of_reach hs hreach
  set st := snapshot (replay k f₀ (upTo ms time)) with hst
  have hle : st.lastMeasurementTime ≤ time := by
    have hmem : st ∈ s.filterStateHistory.filter fun st => st.lastMeasurementTime ≤ time := by
      rw [hrest]
      exact List.mem_cons_self
    exact of_decide_eq_true (List.mem_filter.mp hmem).2
  have hms : ms ≠ [] := fun h => hne (by rw [h]; rfl)
  have hpopped : ((s.measurementHistory.takeWhile fun m => time < m.time).filter
      fun m => st.lastMeasurementTime ≤ m.time)
        = s.measurementHistory.takeWhile fun m => time < m.time := by
    rw [List.filter_eq_self]
    intro m hm
    have hlt := List.mem_takeWhile_imp hm
    exact decide_eq_true (hle.trans (of_decide_eq_true hlt).le)
  have hreversion : reversionState s.filterStateHistory time = some st := by
    rw [reversionState, hs.newestFirst.dropWhile_eq_filter, hrest]
  unfold revertTo
  rw [hreversion]
  dsimp only
  rw [hs.restored hms hne hst, hpopped, hs.newestFirst.dropWhile_eq_filter,
    hs.handled_newestFirst.dropWhile_eq_filter]
  rfl

theorem SavedAt.upTo {ms : List (Measurement β γ)} {history : List (FilterState κ)}
    (hnewest : NewestFirst FilterState.lastMeasurementTime history) {time time' : ℤ}
    (h : SavedAt k f₀ ms history (min time time')) :
    SavedAt k f₀ (RosFilter.upTo ms time)
      (history.filter fun st => st.lastMeasurementTime ≤ time) time' := by
  intro st rest hdrop
  rw [NewestFirst.dropWhile_eq_filter (hnewest.sublist List.filter_sublist),
    List.filter_filter] at hdrop
  rw [upTo_upTo]
  apply h st rest
  rw [hnewest.dropWhile_eq_filter, ← hdrop]
  apply List.filter_congr
  intro st _
  simp only [le_min_iff, Bool.decide_and, Bool.and_comm]

theorem revertTo_replayed {ms : List (Measurement β γ)}
    {s : State T κ β γ Q} (hs : Replayed k f₀ (fun _ => True) ms s) {time : ℤ}
    (hreach : ∃ st ∈ s.filterStateHistory, st.lastMeasurementTime ≤ time) :
    Replayed k f₀ (fun _ => True) (upTo ms time) (revertTo P s time) ∧
      P.elems (revertTo P s time).measurementQueue + (upTo ms time : Multiset (Measurement β γ))
        = P.elems s.measurementQueue + ms := by
  rw [revertTo_eq hs hreach]
  obtain ⟨hne, rest, hrest⟩ := saved_of_reach hs hreach
  obtain ⟨old, hold, hbefore⟩ := hs.handled
  obtain ⟨st, hst, hle⟩ := hreach
  have holdUpTo : upTo old time = old :=
    upTo_of_le fun m hm => (((hbefore m hm).2 st hst).le).trans hle
  have hupTo : upTo ms time = old ++ (upTo s.measurementHistory time).reverse := by
    rw [hold, upTo_append, holdUpTo, upTo, List.filter_reverse]
    rfl
  have hnewest : NewestFirst FilterState.lastMeasurementTime
      (s.filterStateHistory.filter fun st => st.lastMeasurementTime ≤ time) :=
    hs.newestFirst.sublist List.filter_sublist
  have hkept : ∀ st ∈ s.filterStateHistory.filter fun st => st.lastMeasurementTime ≤ time,
      st ∈ s.filterStateHistory := fun st hst => (List.mem_filter.mp hst).1
  constructor
  · refine ⟨hs.inOrder.sublist List.filter_sublist, rfl, ⟨old, hupTo, ?_⟩, ?_, hnewest, ?_,
      fun h => absurd h hne⟩
    · intro m hm
      refine ⟨(hbefore m hm).2 (snapshot (replay k f₀ (upTo ms time))) ?_,
        fun st hst => (hbefore m hm).2 st (hkept st hst)⟩
      exact hkept _ (hrest ▸ List.mem_cons_self)
    · intro time' _
      exact SavedAt.upTo hs.newestFirst (hs.savedAt _ trivial)
    · intro _
      dsimp only
      rw [hrest] at hnewest ⊢
      exact List.forall_mem_cons.mpr ⟨le_rfl, (List.pairwise_cons.mp hnewest).1⟩
  · have hsplit : (s.measurementHistory.takeWhile fun m => time < m.time)
        ++ upTo s.measurementHistory time = s.measurementHistory := by
      rw [upTo, ← hs.handled_newestFirst.dropWhile_eq_filter, List.takeWhile_append_dropWhile]
    have hhistory := congrArg Multiset.ofList hsplit
    rw [← Multiset.coe_add] at hhistory
    dsimp only
    rw [P.elems_foldl_push, hupTo, hold]
    simp only [← Multiset.coe_add, Multiset.coe_reverse]
    rw [← hhistory]
    ac_rfl

/-! ### One update -/

/-- Smoothing, and nothing else that changes what the filter has been handed. -/
structure Smooths (cfg : Config κ) : Prop where
  smoothLaggedData : cfg.smoothLaggedData = true
  predictToCurrentTime : cfg.predictToCurrentTime = false
  useControl : cfg.useControl = false

/-- A late measurement is not later than the history reaches back, and the sensors do not
time out. -/
def InTime (cfg : Config κ) (P : MeasurementQueue β γ Q) (s : State T κ β γ Q) (curTime : ℤ) :
    Prop :=
  match P.pop s.measurementQueue with
  | none => s.filter.initialized → curTime - s.filter.lastMeasurementTime < cfg.sensorTimeout
  | some (first, _) => first.time < s.filter.lastMeasurementTime →
      ∃ st ∈ s.filterStateHistory, st.lastMeasurementTime < first.time

instance decidableInTime (cfg : Config κ) (P : MeasurementQueue β γ Q) (s : State T κ β γ Q)
    (curTime : ℤ) : Decidable (InTime cfg P s curTime) := by
  unfold InTime
  split <;> infer_instance

theorem SavedAt.left_of_append {ms : List (Measurement β γ)} {history dropped : List (FilterState κ)}
    {time : ℤ} (h : SavedAt k f₀ ms (history ++ dropped) time) : SavedAt k f₀ ms history time := by
  intro st rest hdrop
  apply h st (rest ++ dropped)
  rw [List.dropWhile_append, hdrop]
  rfl

/-- A measurement that is dropped is before all states that are not. -/
theorem clearExpiredHistory_replayed {ms : List (Measurement β γ)} {s : State T κ β γ Q}
    (hs : Replayed k f₀ (fun _ => True) ms s) {cutoff : ℤ}
    (hcutoff : cutoff ≤ s.filter.lastMeasurementTime) :
    Replayed k f₀ (fun _ => True) ms (clearExpiredHistory s cutoff) := by
  obtain ⟨old, hold, hbefore⟩ := hs.handled
  obtain ⟨dropped, hdropped⟩ :=
    s.filterStateHistory.rdropWhile_prefix fun st => st.lastMeasurementTime < cutoff
  have hkept : ∀ st ∈ (clearExpiredHistory s cutoff).filterStateHistory,
      st ∈ s.filterStateHistory ∧ cutoff ≤ st.lastMeasurementTime := by
    intro st hst
    rw [clearExpiredHistory, hs.newestFirst.rdropWhile_eq_filter, List.mem_filter] at hst
    exact ⟨hst.1, of_decide_eq_true hst.2⟩
  have hsplit : (s.measurementHistory.rdropWhile fun m => m.time < cutoff)
      ++ (s.measurementHistory.rtakeWhile fun m => m.time < cutoff) = s.measurementHistory :=
    List.rdropWhile_append_rtakeWhile
  refine ⟨hs.inOrder, hs.filter,
    ⟨old ++ (s.measurementHistory.rtakeWhile fun m => m.time < cutoff).reverse, ?_, ?_⟩, ?_, ?_, ?_,
    ?_⟩
  · conv_lhs => rw [hold, ← hsplit, List.reverse_append]
    exact (List.append_assoc _ _ _).symm
  · intro m hm
    rcases List.mem_append.mp hm with hm | hm
    · exact ⟨(hbefore m hm).1, fun st hst => (hbefore m hm).2 st (hkept st hst).1⟩
    · have hlt := List.mem_rtakeWhile_imp (List.mem_reverse.mp hm)
      have hexpired := of_decide_eq_true hlt
      exact ⟨hexpired.trans_le hcutoff, fun st hst => hexpired.trans_le (hkept st hst).2⟩
  · intro time _
    have hsaved := hs.savedAt time trivial
    rw [← hdropped] at hsaved
    exact hsaved.left_of_append
  · exact hs.newestFirst.sublist (List.rdropWhile_prefix _ _).sublist
  · exact fun hne st hst => hs.notAfter hne st (hkept st hst).1
  · intro hnil
    unfold clearExpiredHistory
    rw [hs.unsaved hnil]
    rfl

theorem expireHistory_replayed {ms : List (Measurement β γ)} {s : State T κ β γ Q}
    (hs : Replayed k f₀ (fun _ => True) ms s) :
    Replayed k f₀ (fun _ => True) ms (expireHistory cfg s) := by
  unfold expireHistory
  split_ifs
  · exact clearExpiredHistory_replayed hs (by omega)
  · exact hs

theorem publishEstimate_replayed {ms : List (Measurement β γ)} {s : State T κ β γ Q}
    (hs : Replayed k f₀ (fun _ => True) ms s) :
    Replayed k f₀ (fun _ => True) ms (publishEstimate cfg s).1 := by
  unfold publishEstimate
  split_ifs
  · exact ⟨hs.inOrder, hs.filter, hs.handled, hs.savedAt, hs.newestFirst, hs.notAfter, hs.unsaved⟩
  · exact hs

theorem predictToCurrent_false (s : State T κ β γ Q) (currentTime : ℤ) :
    predictToCurrent k false s currentTime = s := by
  unfold predictToCurrent
  rw [Bool.and_false, if_neg Bool.false_ne_true]

theorem processDue_replayed (hcfg : Smooths cfg) (hf : f₀.initialized = false)
    {ms : List (Measurement β γ)} {s : State T κ β γ Q} (hs : Replayed k f₀ (fun _ => True) ms s)
    (hqueue : ∀ a ∈ ms, ∀ b ∈ P.elems s.measurementQueue, a.time ≤ b.time) (restored : ℕ)
    (now : ℤ) :
    Replayed k f₀ (fun _ => True)
      (ms ++ (due P now (P.size s.measurementQueue) s.measurementQueue).map Prod.fst)
      (processDue cfg k P s restored now) := by
  have hloop := drain_replayed hcfg.smoothLaggedData hcfg.useControl hf now
    le_rfl (x := (s, restored)) hs (Or.inl fun _ => trivial) hqueue
  exact ⟨hloop.inOrder, hloop.filter, hloop.handled, hloop.savedAt, hloop.newestFirst,
    hloop.notAfter, hloop.unsaved⟩

theorem revertTo_queue_gt {ms : List (Measurement β γ)} {s : State T κ β γ Q}
    (hs : Replayed k f₀ (fun _ => True) ms s) {time : ℤ}
    (hreach : ∃ st ∈ s.filterStateHistory, st.lastMeasurementTime ≤ time)
    (hqueue : ∀ b ∈ P.elems s.measurementQueue, time < b.time) :
    ∀ b ∈ P.elems (revertTo P s time).measurementQueue, time < b.time := by
  intro b hb
  rw [revertTo_eq hs hreach, P.elems_foldl_push, Multiset.mem_add] at hb
  rcases hb with hb | hb
  · have hlt := List.mem_takeWhile_imp (Multiset.mem_coe.mp hb)
    exact of_decide_eq_true hlt
  · exact hqueue b hb

/-- What the loop starts with: the measurements of the queue come after those that the
filter keeps. -/
theorem reverted_replayed (hcfg : Smooths cfg) (hf : f₀.initialized = false)
    {ms : List (Measurement β γ)} {s : State T κ β γ Q} (hs : Replayed k f₀ (fun _ => True) ms s)
    {curTime : ℤ} (hin : InTime cfg P s curTime) :
    ∃ kept, Replayed k f₀ (fun _ => True) kept (reverted cfg P s) ∧ kept ⊆ ms ∧
      P.elems (reverted cfg P s).measurementQueue + (kept : Multiset (Measurement β γ))
        = P.elems s.measurementQueue + ms ∧
      ∀ a ∈ kept, ∀ b ∈ P.elems (reverted cfg P s).measurementQueue, a.time ≤ b.time := by
  unfold reverted
  unfold InTime at hin
  cases hpop : P.pop s.measurementQueue with
  | none =>
    refine ⟨ms, hs, List.Subset.refl ms, rfl, ?_⟩
    intro a _ b hb
    rw [P.pop_none _ hpop] at hb
    exact absurd hb (Multiset.notMem_zero b)
  | some x =>
    obtain ⟨first, rest⟩ := x
    rw [hpop] at hin
    dsimp only at hin ⊢
    unfold revertForLate
    rw [hcfg.smoothLaggedData, Bool.true_and]
    by_cases hlate : first.time < s.filter.lastMeasurementTime
    · rw [if_pos (decide_eq_true hlate)]
      obtain ⟨st, hst, hlt⟩ := hin hlate
      have hreach : ∃ st ∈ s.filterStateHistory, st.lastMeasurementTime ≤ first.time - 1 :=
        ⟨st, hst, Int.le_sub_one_of_lt hlt⟩
      obtain ⟨hreplayed, helems⟩ := revertTo_replayed (P := P) hs hreach
      refine ⟨upTo ms (first.time - 1), hreplayed, List.filter_subset_self ms, helems, ?_⟩
      have hqueue : ∀ b ∈ P.elems s.measurementQueue, first.time - 1 < b.time := by
        intro b hb
        have hle := P.le_of_pop hpop hb
        omega
      intro a ha b hb
      have hle : a.time ≤ first.time - 1 := of_decide_eq_true (List.mem_filter.mp ha).2
      exact hle.trans (revertTo_queue_gt hs hreach hqueue b hb).le
    · rw [if_neg (by simpa using hlate)]
      refine ⟨ms, hs, List.Subset.refl ms, rfl, ?_⟩
      intro a ha b hb
      have htime := hs.le_time hf a ha
      have hle := P.le_of_pop hpop hb
      omega

theorem integrateMeasurements_eq (hcfg : Smooths cfg) {s : State T κ β γ Q} {curTime : ℤ}
    (hin : InTime cfg P s curTime) :
    ∃ restored, integrateMeasurements cfg k P s curTime
      = processDue cfg k P (reverted cfg P s) restored curTime := by
  unfold integrateMeasurements reverted
  unfold InTime at hin
  cases hpop : P.pop s.measurementQueue with
  | none =>
    rw [hpop] at hin
    have hsize : P.size s.measurementQueue = 0 := by
      rw [Queue.size, P.pop_none _ hpop, Multiset.card_zero]
    have hidle : processDue cfg k P s 0 curTime = s := by
      rw [processDue, hsize]
      rfl
    refine ⟨0, ?_⟩
    dsimp only
    rw [hidle, hcfg.predictToCurrentTime, Bool.false_or, predictToCurrent, if_neg]
    rw [Bool.and_eq_true, decide_eq_true_eq, not_and, not_le]
    exact hin
  | some x =>
    dsimp only
    rw [hcfg.predictToCurrentTime, predictToCurrent_false]
    exact ⟨_, rfl⟩

/-- One update takes the filter from the replay of `ms` to the replay of what it then has. -/
theorem integrateMeasurements_replayed (hcfg : Smooths cfg) (hf : f₀.initialized = false)
    {ms : List (Measurement β γ)} {s : State T κ β γ Q} (hs : Replayed k f₀ (fun _ => True) ms s)
    {curTime : ℤ} (hin : InTime cfg P s curTime) :
    ∃ ms', Replayed k f₀ (fun _ => True) ms' (integrateMeasurements cfg k P s curTime) ∧
      (∀ m ∈ ms', m ∈ ms ∨ m.time ≤ curTime) ∧
      (ms' : Multiset (Measurement β γ))
          + P.elems (integrateMeasurements cfg k P s curTime).measurementQueue
        = ms + P.elems s.measurementQueue := by
  obtain ⟨kept, hkept, hsubset, helems, hqueue⟩ := reverted_replayed hcfg hf hs hin
  refine ⟨kept ++ batch cfg P s curTime, ?_, ?_, ?_⟩
  · obtain ⟨restored, heq⟩ := integrateMeasurements_eq (k := k) hcfg hin
    rw [heq]
    exact processDue_replayed hcfg hf hkept hqueue restored curTime
  · intro m hm
    rcases List.mem_append.mp hm with hm | hm
    · exact Or.inl (hsubset hm)
    · exact Or.inr ((batch_inOrder cfg k P s curTime).2.1 m hm)
  · rw [← Multiset.coe_add, add_assoc, batch_add_queue, add_comm, helems, add_comm]

theorem replayed_initial (control : γ × ℤ) (enabled : Bool) :
    Replayed (T := T) k (initial (T := T) cfg P control enabled).filter (fun _ => True) []
      (initial cfg P control enabled) :=
  ⟨List.Pairwise.nil, rfl, ⟨[], rfl, nofun⟩, fun _ _ _ _ h => absurd h.symm (List.cons_ne_nil _ _),
    List.Pairwise.nil, fun h => absurd rfl h, fun _ => rfl⟩

end Replayed

/-! ### Every run -/

section Runs
variable [DecidableEq T] {cfg : Config κ} {k : Kernel κ β γ} {P : MeasurementQueue β γ Q}

/-- The run only measures and updates; every update is in time. -/
def Measures (cfg : Config κ) (P : MeasurementQueue β γ Q) (s : State T κ β γ Q) :
    Event T κ β γ → Prop
  | .sensor .. | .toggle _ | .enable => True
  | .update curTime _ => s.toggledOn ∧ InTime cfg P s curTime
  | _ => False

instance decidableMeasures (cfg : Config κ) (P : MeasurementQueue β γ Q) (s : State T κ β γ Q) :
    ∀ x, Decidable (Measures (γ := γ) cfg P s x)
  | .sensor .. | .toggle _ | .enable => .isTrue trivial
  | .update curTime _ => inferInstanceAs (Decidable (s.toggledOn ∧ InTime cfg P s curTime))
  | .control .. | .setPose .. | .reset | .deactivate => .isFalse not_false

theorem step_replayed (hcfg : Smooths cfg) {f₀ : Filter κ γ} (hf : f₀.initialized = false)
    {ms : List (Measurement β γ)} {s : State T κ β γ Q} (hs : Replayed k f₀ (fun _ => True) ms s)
    {x : Event T κ β γ} (hx : Measures cfg P s x) :
    ∃ ms', Replayed k f₀ (fun _ => True) ms' (step cfg k P s x).1 ∧
      (∀ m ∈ ms', m ∈ ms ∨ ∃ curTime now, x = .update curTime now ∧ m.time ≤ curTime) ∧
      (ms' : Multiset (Measurement β γ)) + P.elems (step cfg k P s x).1.measurementQueue
        = (enqueued s x).toList + (ms + P.elems s.measurementQueue) := by
  cases x with
  | sensor topic stamp body =>
    refine ⟨ms, ?_, fun m hm => Or.inl hm, ?_⟩
    · simp only [step, sensorCallback]
      split_ifs
      · exact hs
      · exact ⟨hs.inOrder, hs.filter, hs.handled, hs.savedAt, hs.newestFirst, hs.notAfter,
          hs.unsaved⟩
      · exact hs
      · exact hs
    · simp only [step]
      rw [sensorCallback_queue]
      ac_rfl
  | control control stamp => exact absurd hx not_false
  | setPose stamp estimate now => exact absurd hx not_false
  | reset => exact absurd hx not_false
  | toggle on =>
    exact ⟨ms, ⟨hs.inOrder, hs.filter, hs.handled, hs.savedAt, hs.newestFirst, hs.notAfter,
      hs.unsaved⟩, fun m hm => Or.inl hm, (zero_add _).symm⟩
  | enable =>
    exact ⟨ms, ⟨hs.inOrder, hs.filter, hs.handled, hs.savedAt, hs.newestFirst, hs.notAfter,
      hs.unsaved⟩, fun m hm => Or.inl hm, (zero_add _).symm⟩
  | deactivate => exact absurd hx not_false
  | update curTime now =>
    obtain ⟨hon, hin⟩ := hx
    cases henabled : s.enabled with
    | false =>
      have hidle : step cfg k P s (.update curTime now) = (s, none) := by
        simp only [step, periodicUpdate, henabled, Bool.false_eq_true, not_false_eq_true, if_true]
      rw [hidle]
      exact ⟨ms, hs, fun m hm => Or.inl hm, (zero_add _).symm⟩
    | true =>
      obtain ⟨ms', hms', hdue, helems⟩ := integrateMeasurements_replayed hcfg hf hs hin
      refine ⟨ms', ?_, ?_, ?_⟩
      · simp only [step, periodicUpdate, henabled, not_true_eq_false, if_false, updateFilter,
          if_pos hon]
        exact expireHistory_replayed (publishEstimate_replayed hms')
      · intro m hm
        rcases hdue m hm with hm | hm
        · exact Or.inl hm
        · exact Or.inr ⟨curTime, now, rfl, hm⟩
      · simp only [step]
        rw [periodicUpdate_queue cfg k P henabled, updateFilter, if_pos hon, helems]
        exact (zero_add _).symm

theorem run_replayed (hcfg : Smooths cfg) (control : γ × ℤ) (enabled : Bool)
    {xs : List (Event T κ β γ)}
    (hxs : Callback.AllSteps (step cfg k P) (Measures cfg P) (initial cfg P control enabled) xs) :
    ∃ ms, Replayed k (initial (T := T) cfg P control enabled).filter (fun _ => True) ms
        (Callback.stateAfter (step cfg k P) (initial cfg P control enabled) xs) ∧
      (ms : Multiset (Measurement β γ))
          + P.elems (Callback.stateAfter (step cfg k P) (initial cfg P control enabled)
              xs).measurementQueue
        = enqueuedIn cfg k P (initial cfg P control enabled) xs := by
  set s₀ : State T κ β γ Q := initial cfg P control enabled with hs₀
  refine Callback.stateAfter_invariant (step cfg k P) (P := Measures cfg P)
    (J := fun xs s => ∃ ms, Replayed k s₀.filter (fun _ => True) ms s ∧
      (ms : Multiset (Measurement β γ)) + P.elems s.measurementQueue = enqueuedIn cfg k P s₀ xs)
    ⟨[], replayed_initial control enabled, (zero_add _).trans P.elems_empty⟩ ?_ xs hxs
  rintro xs x ⟨ms, hms, helems⟩ hx
  obtain ⟨ms', hms', -, helems'⟩ := step_replayed hcfg rfl hms hx
  refine ⟨ms', hms', ?_⟩
  rw [helems', helems, enqueuedIn_append_singleton, ← Multiset.coe_add, add_comm]

def lagged : Config ℤ := ⟨true, 100, false, false, 50, false, 0⟩

theorem smooths_lagged : Smooths lagged := ⟨rfl, rfl, rfl⟩

end Runs

/-! ### The order of arrival -/

section Arrival
variable [DecidableEq T] {cfg : Config κ} {k : Kernel κ β γ} {P : MeasurementQueue β γ Q}

/-- Two measurements of one time are the same: otherwise the queue may hand out either first. -/
def TimesTell (ms : List (Measurement β γ)) : Prop :=
  ∀ m ∈ ms, ∀ m' ∈ ms, m.time = m'.time → m = m'

theorem measures_enabled (control : γ × ℤ) {xs : List (Event T κ β γ)}
    (hxs : Callback.AllSteps (step cfg k P) (Measures cfg P) (initial cfg P control true) xs) :
    (Callback.stateAfter (step cfg k P) (initial cfg P control true) xs).enabled = true := by
  refine Callback.stateAfter_invariant (step cfg k P) (P := Measures cfg P)
    (J := fun _ s => s.enabled = true) rfl ?_ xs hxs
  intro xs x henabled hx
  cases x with
  | sensor topic stamp body =>
    simp only [step, sensorCallback]
    split_ifs <;> exact henabled
  | control control stamp => exact absurd hx not_false
  | setPose stamp estimate now => exact absurd hx not_false
  | reset => exact absurd hx not_false
  | toggle on => exact henabled
  | enable => rfl
  | deactivate => exact absurd hx not_false
  | update curTime now =>
    obtain ⟨stamp, f, q, hist, handled, hframe⟩ := framed_periodicUpdate cfg k P
      (Callback.stateAfter (step cfg k P) (initial cfg P control true) xs) curTime now
    simp only [step]
    rw [hframe]
    exact henabled

/-- After an update at `curTime` the filter has had what was enqueued up to then. -/
theorem filter_after_update (hcfg : Smooths cfg) (control : γ × ℤ) {xs : List (Event T κ β γ)}
    {curTime now : ℤ} (hsteady : Steady (xs ++ [.update curTime now]))
    (hxs : Callback.AllSteps (step cfg k P) (Measures cfg P) (initial cfg P control true)
      (xs ++ [.update curTime now])) :
    ∃ ms, InOrder ms ∧
      ms.Perm (upTo (enqueuedIn cfg k P (initial cfg P control true) xs) curTime) ∧
      (Callback.stateAfter (step cfg k P) (initial cfg P control true)
          (xs ++ [.update curTime now])).filter
        = replay k (initial (T := T) cfg P control true).filter ms := by
  obtain ⟨hrun, ⟨hon, hin⟩, -⟩ := (Callback.allSteps_append _ _ _ _ _).mp hxs
  obtain ⟨-, ⟨-, htime⟩, -⟩ := (Callback.allSteps_append _ _ _ _ _).mp
    (onTime_initial (P := P) cfg k hsteady control true)
  obtain ⟨ms, hms, helems⟩ := run_replayed hcfg control true hrun
  have henabled := measures_enabled control hrun
  rw [Callback.stateAfter_append]
  set s := Callback.stateAfter (step cfg k P) (initial cfg P control true) xs
  have hahead := (htime curTime List.mem_cons_self).2.filter
  obtain ⟨ms', hms', hdue, helems'⟩ :=
    step_replayed (k := k) hcfg rfl hms (x := .update curTime now) ⟨hon, hin⟩
  have hupTo : ∀ m ∈ ms', m.time ≤ curTime := by
    intro m hm
    rcases hdue m hm with hm | ⟨_, _, ⟨⟩, hle⟩
    · exact (hms.le_time rfl m hm).trans hahead
    · exact hle
  have hlater : ∀ m ∈ P.elems (step cfg k P s (.update curTime now)).1.measurementQueue,
      ¬ m.time ≤ curTime := by
    intro m hm
    simp only [step] at hm
    rw [periodicUpdate_queue cfg k P henabled, updateFilter, if_pos hon] at hm
    exact not_le.mpr ((batch_inOrder cfg k P s curTime).2.2 m hm)
  refine ⟨ms', hms'.inOrder, ?_, hms'.filter⟩
  have hnone : enqueued s (.update curTime now : Event T κ β γ) = none := rfl
  rw [helems, hnone, Option.toList_none] at helems'
  have hfilter := congrArg (Multiset.filter fun m => m.time ≤ curTime) helems'
  rw [Multiset.filter_add, Multiset.filter_eq_nil.mpr hlater, Multiset.filter_eq_self.mpr hupTo,
    add_zero, Multiset.coe_nil, zero_add, Multiset.filter_coe] at hfilter
  exact Multiset.coe_eq_coe.mp hfilter

/-- Two runs that have enqueued the same measurements, in whatever order they came, have the
same filter after an update at the same time. -/
theorem arrival_order_irrelevant (hcfg : Smooths cfg) (control : γ × ℤ)
    {xs ys : List (Event T κ β γ)} {curTime now now' : ℤ}
    (hxs : Steady (xs ++ [.update curTime now]) ∧
      Callback.AllSteps (step cfg k P) (Measures cfg P) (initial cfg P control true)
        (xs ++ [.update curTime now]))
    (hys : Steady (ys ++ [.update curTime now']) ∧
      Callback.AllSteps (step cfg k P) (Measures cfg P) (initial cfg P control true)
        (ys ++ [.update curTime now']))
    (hsame : (enqueuedIn cfg k P (initial cfg P control true) xs).Perm
      (enqueuedIn cfg k P (initial cfg P control true) ys))
    (htimes : TimesTell (enqueuedIn cfg k P (initial cfg P control true) xs)) :
    (Callback.stateAfter (step cfg k P) (initial cfg P control true)
        (xs ++ [.update curTime now])).filter
      = (Callback.stateAfter (step cfg k P) (initial cfg P control true)
          (ys ++ [.update curTime now'])).filter := by
  obtain ⟨ms, hms, hperm, hfilter⟩ := filter_after_update hcfg control hxs.1 hxs.2
  obtain ⟨ms', hms', hperm', hfilter'⟩ := filter_after_update hcfg control hys.1 hys.2
  rw [hfilter, hfilter']
  have hboth : ms.Perm ms' := hperm.trans ((hsame.filter _).trans hperm'.symm)
  have hmem : ∀ m ∈ ms, m ∈ enqueuedIn cfg k P (initial cfg P control true) xs :=
    fun m hm => List.mem_of_mem_filter (hperm.mem_iff.mp hm)
  congr 1
  refine hboth.eq_of_pairwise ?_ hms hms'
  intro m m' hm hm' hle hge
  exact htimes m (hmem m hm) m' (hmem m' (hboth.mem_iff.mpr hm')) (le_antisymm hle hge)

end Arrival

end RosFilter
end RtkLocalization
