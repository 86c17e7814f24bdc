import Mathlib.Data.List.Chain
import Mathlib.Data.List.ReduceOption

/-!
# Runs of a callback

A subscriber node is a function that takes its state and one incoming message
and returns the next state and at most one published message. A run feeds it a
finite list of messages. The rules below turn facts about one callback into
facts about every run: `stateAfter_invariant` for an invariant that may look at
the messages received so far, `published_isChain` for a relation between
consecutive published messages, `published_accepted` for the comparison with the run that
never saw the messages which published nothing, and `outputs_eq_of_simulation`
for two runs over related messages.
-/

namespace Callback
variable {σ ι ο : Type}

/-- One callback: next state, and the message it publishes if any. -/
abbrev Step (σ ι ο : Type) := σ → ι → σ × Option ο

def stateAfter (step : Step σ ι ο) : σ → List ι → σ
  | s, [] => s
  | s, x :: xs => stateAfter step (step s x).1 xs

def outputs (step : Step σ ι ο) : σ → List ι → List (Option ο)
  | _, [] => []
  | s, x :: xs => (step s x).2 :: outputs step (step s x).1 xs

def published (step : Step σ ι ο) (s : σ) (xs : List ι) : List ο :=
  (outputs step s xs).reduceOption

/-- The incoming messages of a run that led to a publication. -/
def accepted (step : Step σ ι ο) : σ → List ι → List ι
  | _, [] => []
  | s, x :: xs =>
    match (step s x).2 with
    | none => accepted step (step s x).1 xs
    | some _ => x :: accepted step (step s x).1 xs

/-- The incoming messages of a run that led to none. -/
def refused (step : Step σ ι ο) : σ → List ι → List ι
  | _, [] => []
  | s, x :: xs =>
    match (step s x).2 with
    | none => x :: refused step (step s x).1 xs
    | some _ => refused step (step s x).1 xs

def AllSteps (step : Step σ ι ο) (P : σ → ι → Prop) : σ → List ι → Prop
  | _, [] => True
  | s, x :: xs => P s x ∧ AllSteps step P (step s x).1 xs

instance decidableAllSteps (step : Step σ ι ο) {P : σ → ι → Prop} [∀ s x, Decidable (P s x)] :
    ∀ s xs, Decidable (AllSteps step P s xs)
  | _, [] => .isTrue trivial
  | s, x :: xs =>
    have := decidableAllSteps step (P := P) (step s x).1 xs
    inferInstanceAs (Decidable (P s x ∧ AllSteps step P (step s x).1 xs))

variable (step : Step σ ι ο)

theorem stateAfter_append (s : σ) (xs ys : List ι) :
    stateAfter step s (xs ++ ys) = stateAfter step (stateAfter step s xs) ys := by
  induction xs generalizing s with
  | nil => rfl
  | cons x xs ih => exact ih (step s x).1

/-- What a run lets one observe, step by step. -/
def observed {β : Type} (f : σ → ι → Option β) : σ → List ι → List β
  | _, [] => []
  | s, x :: xs => (f s x).toList ++ observed f (step s x).1 xs

theorem observed_append {β : Type} (f : σ → ι → Option β) (s : σ) (xs ys : List ι) :
    observed step f s (xs ++ ys)
      = observed step f s xs ++ observed step f (stateAfter step s xs) ys := by
  induction xs generalizing s with
  | nil => rfl
  | cons x xs ih => simp only [List.cons_append, observed, stateAfter, ih, List.append_assoc]

theorem allSteps_append (P : σ → ι → Prop) (s : σ) (xs ys : List ι) :
    AllSteps step P s (xs ++ ys) ↔
      AllSteps step P s xs ∧ AllSteps step P (stateAfter step s xs) ys := by
  induction xs generalizing s with
  | nil => simp [AllSteps, stateAfter]
  | cons x xs ih => simp only [List.cons_append, AllSteps, stateAfter, ih, and_assoc]

/-- An invariant `J` of the state and of the messages received so far. -/
theorem stateAfter_invariant {J : List ι → σ → Prop} {P : σ → ι → Prop} {s : σ} (h0 : J [] s)
    (hstep : ∀ xs x, J xs (stateAfter step s xs) → P (stateAfter step s xs) x →
      J (xs ++ [x]) (step (stateAfter step s xs) x).1)
    (xs : List ι) (hP : AllSteps step P s xs) : J xs (stateAfter step s xs) := by
  induction xs using List.reverseRecOn with
  | nil => exact h0
  | append_singleton xs x ih =>
    obtain ⟨hxs, hx, -⟩ := (allSteps_append step P s xs [x]).mp hP
    rw [stateAfter_append]
    exact hstep xs x (ih hxs) hx

theorem outputs_append (s : σ) (xs ys : List ι) :
    outputs step s (xs ++ ys) = outputs step s xs ++ outputs step (stateAfter step s xs) ys := by
  induction xs generalizing s with
  | nil => rfl
  | cons x xs ih => simp only [List.cons_append, outputs, stateAfter, ih]

theorem published_append (s : σ) (xs ys : List ι) :
    published step s (xs ++ ys)
      = published step s xs ++ published step (stateAfter step s xs) ys := by
  simp only [published, outputs_append, List.reduceOption_append]

theorem published_append_singleton (s : σ) (xs : List ι) (x : ι) :
    published step s (xs ++ [x])
      = published step s xs ++ (step (stateAfter step s xs) x).2.toList := by
  rw [published_append]
  simp only [published, outputs, List.reduceOption_singleton]

theorem published_nil (s : σ) : published step s [] = [] := rfl

theorem accepted_nil (s : σ) : accepted step s [] = [] := rfl

theorem published_cons_none {s : σ} {x : ι} (xs : List ι) (h : (step s x).2 = none) :
    published step s (x :: xs) = published step (step s x).1 xs := by
  simp only [published, outputs, h, List.reduceOption_cons_of_none]

theorem published_cons_some {s : σ} {x : ι} {o : ο} (xs : List ι) (h : (step s x).2 = some o) :
    published step s (x :: xs) = o :: published step (step s x).1 xs := by
  simp only [published, outputs, h, List.reduceOption_cons_of_some]

theorem accepted_cons_none {s : σ} {x : ι} (xs : List ι) (h : (step s x).2 = none) :
    accepted step s (x :: xs) = accepted step (step s x).1 xs := by
  simp only [accepted, h]

theorem accepted_cons_some {s : σ} {x : ι} {o : ο} (xs : List ι) (h : (step s x).2 = some o) :
    accepted step s (x :: xs) = x :: accepted step (step s x).1 xs := by
  simp only [accepted, h]

theorem allSteps_of_forall {P : σ → ι → Prop} (h : ∀ s x, P s x) (s : σ) (xs : List ι) :
    AllSteps step P s xs := by
  induction xs generalizing s with
  | nil => trivial
  | cons x xs ih => exact ⟨h s x, ih _⟩

theorem allSteps_of_forall_mem {P : σ → ι → Prop} {xs : List ι} (h : ∀ x ∈ xs, ∀ s, P s x)
    (s : σ) : AllSteps step P s xs := by
  induction xs generalizing s with
  | nil => trivial
  | cons x xs ih =>
    obtain ⟨hx, hxs⟩ := List.forall_mem_cons.mp h
    exact ⟨hx s, ih hxs _⟩

theorem AllSteps.and {P P' : σ → ι → Prop} {s : σ} {xs : List ι} (h : AllSteps step P s xs)
    (h' : AllSteps step P' s xs) : AllSteps step (fun s x => P s x ∧ P' s x) s xs := by
  induction xs generalizing s with
  | nil => trivial
  | cons x xs ih => exact ⟨⟨h.1, h'.1⟩, ih h.2 h'.2⟩

/-- What the steps of a run contribute, one after the other. -/
def collected {β : Type} (f : σ → ι → List β) : σ → List ι → List β
  | _, [] => []
  | s, x :: xs => f s x ++ collected f (step s x).1 xs

/-- If each step puts into the queue what it is given, at the back, and takes from the
front, then so does the run. -/
theorem collected_conserved {β : Type} {queue : σ → List β} {given taken : σ → ι → List β}
    {J : σ → Prop} {P : σ → ι → Prop}
    (hstep : ∀ s x, J s → P s x → J (step s x).1 ∧
      taken s x ++ queue (step s x).1 = queue s ++ given s x)
    {s : σ} {xs : List ι} (hJ : J s) (hP : AllSteps step P s xs) :
    collected step taken s xs ++ queue (stateAfter step s xs)
      = queue s ++ collected step given s xs := by
  induction xs generalizing s with
  | nil => simp only [collected, stateAfter, List.nil_append, List.append_nil]
  | cons x xs ih =>
    obtain ⟨hJ', hx⟩ := hstep s x hJ hP.1
    simp only [collected, stateAfter]
    rw [List.append_assoc, ih hJ' hP.2, ← List.append_assoc, hx, List.append_assoc]

theorem allSteps_of_collected_eq_nil {β : Type} {f : σ → ι → List β} {s : σ} {xs : List ι}
    (h : collected step f s xs = []) : AllSteps step (fun s x => f s x = []) s xs := by
  induction xs generalizing s with
  | nil => trivial
  | cons x xs ih =>
    obtain ⟨hx, hxs⟩ := List.append_eq_nil_iff.mp h
    exact ⟨hx, ih hxs⟩

theorem map_collected {β γ : Type} (g : β → γ) (f : σ → ι → List β) (s : σ) (xs : List ι) :
    (collected step f s xs).map g = collected step (fun s x => (f s x).map g) s xs := by
  induction xs generalizing s with
  | nil => rfl
  | cons x xs ih => simp only [collected, List.map_append, ih]

theorem flatMap_published {β : Type} (g : ο → List β) (s : σ) (xs : List ι) :
    (published step s xs).flatMap g
      = collected step (fun s x => (step s x).2.toList.flatMap g) s xs := by
  induction xs generalizing s with
  | nil => rfl
  | cons x xs ih =>
    simp only [collected]
    cases ho : (step s x).2 with
    | none => rw [published_cons_none step xs ho, ih, Option.toList_none, List.flatMap_nil,
        List.nil_append]
    | some o => rw [published_cons_some step xs ho, List.flatMap_cons, ih, Option.toList_some,
        List.flatMap_singleton]

/-- An invariant `J` of the state that puts every publication in `R`. -/
theorem published_forall {J : σ → Prop} {P : σ → ι → Prop} {R : ο → Prop}
    (hstep : ∀ s x, J s → P s x → J (step s x).1 ∧ ∀ o ∈ (step s x).2, R o)
    {s : σ} {xs : List ι} (hJ : J s) (hP : AllSteps step P s xs) :
    ∀ o ∈ published step s xs, R o := by
  induction xs generalizing s with
  | nil => exact fun o ho => absurd ho List.not_mem_nil
  | cons x xs ih =>
    obtain ⟨hJ', hR⟩ := hstep s x hJ hP.1
    have hxs := ih hJ' hP.2
    cases ho : (step s x).2 with
    | none => rwa [published_cons_none step xs ho]
    | some o =>
      rw [published_cons_some step xs ho]
      exact List.forall_mem_cons.mpr ⟨hR o ho, hxs⟩

/-- If `J s p` ties the state to the last published message `p`, and every
publication stands in relation `R` to that message, then consecutive published
messages of the whole run are related by `R`. -/
theorem published_isChain {J : σ → ο → Prop} {P : σ → ι → Prop} {R : ο → ο → Prop}
    (hnone : ∀ s x p, J s p → P s x → (step s x).2 = none → J (step s x).1 p)
    (hsome : ∀ s x p o, J s p → P s x → (step s x).2 = some o → R p o ∧ J (step s x).1 o)
    (s : σ) (xs : List ι) (p : ο) (hJ : J s p) (hP : AllSteps step P s xs) :
    List.IsChain R (p :: published step s xs) := by
  induction xs generalizing s p with
  | nil => exact List.isChain_singleton p
  | cons x xs ih =>
    obtain ⟨hx, hxs⟩ := hP
    cases ho : (step s x).2 with
    | none =>
      rw [published_cons_none step xs ho]
      exact ih _ p (hnone s x p hJ hx ho) hxs
    | some o =>
      obtain ⟨hR, hJ'⟩ := hsome s x p o hJ hx ho
      rw [published_cons_some step xs ho]
      exact List.isChain_cons_cons.mpr ⟨hR, ih _ o hJ' hxs⟩

/-- Silent messages that keep the node in the simulation relation `R` leave no
trace: a run without them publishes the same messages. -/
theorem published_accepted {R : σ → σ → Prop} {P : σ → ι → Prop}
    (hnone : ∀ s t x, R s t → P s x → (step s x).2 = none → R (step s x).1 t)
    (hsome : ∀ s t x o, R s t → P s x → (step s x).2 = some o →
      (step t x).2 = some o ∧ R (step s x).1 (step t x).1)
    (s t : σ) (xs : List ι) (hR : R s t) (hP : AllSteps step P s xs) :
    published step t (accepted step s xs) = published step s xs := by
  induction xs generalizing s t with
  | nil => rfl
  | cons x xs ih =>
    obtain ⟨hx, hxs⟩ := hP
    cases ho : (step s x).2 with
    | none =>
      rw [accepted_cons_none step xs ho, published_cons_none step xs ho]
      exact ih _ t (hnone s t x hR hx ho) hxs
    | some o =>
      obtain ⟨ht, hR'⟩ := hsome s t x o hR hx ho
      rw [accepted_cons_some step xs ho, published_cons_some step xs ho,
        published_cons_some step _ ht, ih _ _ hR' hxs]

/-- Two runs over pairwise related messages whose steps keep the states related
and publish the same, as seen through `f`. -/
theorem outputs_eq_of_simulation {π : Type} (f : ο → π) {R : σ → σ → Prop} {E : ι → ι → Prop}
    (hstep : ∀ s t x y, R s t → E x y →
      (step s x).2.map f = (step t y).2.map f ∧ R (step s x).1 (step t y).1)
    (s t : σ) (xs ys : List ι) (hR : R s t) (hE : List.Forall₂ E xs ys) :
    (outputs step s xs).map (Option.map f) = (outputs step t ys).map (Option.map f) := by
  induction hE generalizing s t with
  | nil => rfl
  | cons hxy _ ih =>
    obtain ⟨ho, hR'⟩ := hstep s t _ _ hR hxy
    simp only [outputs, List.map_cons, ho, ih _ _ hR']

end Callback
