import Mathlib.Algebra.Order.Group.Multiset
import Mathlib.Order.Defs.LinearOrder

/-!
# Priority queues by time

A queue that hands out an earliest element; which of several is left open. `drain`
is the loop that takes out and handles what is due. The body of the loop sees the
rest of the queue and does not change it, so the loop is a fold over `due`, a
sorted list, and leaves `later`, which is not due.
-/

namespace TimedQueue
variable {Q μ τ σ : Type} [LinearOrder τ] {time : μ → τ}

structure Queue (Q : Type) (time : μ → τ) where
  elems : Q → Multiset μ
  empty : Q
  push : μ → Q → Q
  pop : Q → Option (μ × Q)
  elems_empty : elems empty = 0
  elems_push : ∀ m q, elems (push m q) = m ::ₘ elems q
  pop_none : ∀ q, pop q = none → elems q = 0
  pop_some : ∀ q m r, pop q = some (m, r) →
    elems q = m ::ₘ elems r ∧ ∀ m' ∈ elems r, time m ≤ time m'

variable (P : Queue Q time)

def Queue.size (q : Q) : ℕ := (P.elems q).card

theorem Queue.elems_foldl_push (ms : List μ) (q : Q) :
    P.elems (ms.foldl (fun q m => P.push m q) q) = (ms : Multiset μ) + P.elems q := by
  induction ms generalizing q with
  | nil => exact (zero_add _).symm
  | cons m ms ih =>
    rw [List.foldl_cons, ih, P.elems_push, ← Multiset.cons_coe, Multiset.cons_add,
      Multiset.add_cons]

theorem Queue.pop_eq_none_iff (q : Q) : P.pop q = none ↔ P.elems q = 0 := by
  constructor
  · exact P.pop_none q
  · intro hzero
    cases hpop : P.pop q with
    | none => rfl
    | some x =>
      have hcons := (P.pop_some q x.1 x.2 hpop).1
      rw [hzero] at hcons
      exact absurd hcons (Multiset.zero_ne_cons)

/-- The elements of `q` other than `m` are not before it. -/
theorem Queue.le_of_pop {q r : Q} {m m' : μ} (h : P.pop q = some (m, r))
    (hmem : m' ∈ P.elems q) : time m ≤ time m' := by
  obtain ⟨hq, hle⟩ := P.pop_some q m r h
  rw [hq, Multiset.mem_cons] at hmem
  rcases hmem with rfl | hmem
  · exact le_rfl
  · exact hle m' hmem

def drain (now : τ) (body : σ → μ → Q → σ) : ℕ → Q → σ → Q × σ
  | 0, q, s => (q, s)
  | n + 1, q, s =>
    match P.pop q with
    | none => (q, s)
    | some (m, r) => if now < time m then (q, s) else drain now body n r (body s m r)

/-- What the loop takes out, each with the queue it leaves. -/
def due (now : τ) : ℕ → Q → List (μ × Q)
  | 0, _ => []
  | n + 1, q =>
    match P.pop q with
    | none => []
    | some (m, r) => if now < time m then [] else (m, r) :: due now n r

def later (now : τ) : ℕ → Q → Q
  | 0, q => q
  | n + 1, q =>
    match P.pop q with
    | none => q
    | some (m, r) => if now < time m then q else later now n r

theorem drain_eq (now : τ) (body : σ → μ → Q → σ) (n : ℕ) (q : Q) (s : σ) :
    drain P now body n q s
      = (later P now n q, (due P now n q).foldl (fun s x => body s x.1 x.2) s) := by
  induction n generalizing q s with
  | zero => rfl
  | succ n ih =>
    unfold drain due later
    cases P.pop q with
    | none => rfl
    | some x =>
      simp only
      split_ifs
      · rfl
      · exact ih x.2 (body s x.1 x.2)

theorem elems_eq_due_add_later (now : τ) (n : ℕ) (q : Q) :
    P.elems q = (((due P now n q).map Prod.fst : List μ) : Multiset μ)
      + P.elems (later P now n q) := by
  induction n generalizing q with
  | zero => exact (zero_add _).symm
  | succ n ih =>
    unfold due later
    cases hpop : P.pop q with
    | none => exact (zero_add _).symm
    | some x =>
      simp only
      split_ifs
      · exact (zero_add _).symm
      · rw [(P.pop_some q x.1 x.2 hpop).1, ih x.2, List.map_cons, ← Multiset.cons_coe,
          Multiset.cons_add]

theorem mem_of_mem_due {now : τ} {n : ℕ} {q : Q} {m : μ}
    (h : m ∈ (due P now n q).map Prod.fst) : m ∈ P.elems q := by
  rw [elems_eq_due_add_later P now n q]
  exact Multiset.mem_add.mpr (Or.inl h)

/-- What the body keeps, the loop keeps. -/
theorem drain_invariant {J : σ → Prop} {now : τ} {body : σ → μ → Q → σ} {n : ℕ} {q : Q} {s : σ}
    (h : J s) (hbody : ∀ s m r, J s → m ∈ P.elems q → time m ≤ now → J (body s m r)) :
    J (drain P now body n q s).2 := by
  induction n generalizing q s with
  | zero => exact h
  | succ n ih =>
    unfold drain
    cases hpop : P.pop q with
    | none => exact h
    | some x =>
      have hq := (P.pop_some q x.1 x.2 hpop).1
      simp only
      split_ifs with hlater
      · exact h
      · apply ih
        · refine hbody s x.1 x.2 h ?_ (not_lt.mp hlater)
          rw [hq]
          exact Multiset.mem_cons_self x.1 _
        · intro s' m r hs' hm
          refine hbody s' m r hs' ?_
          rw [hq]
          exact Multiset.mem_cons_of_mem hm

theorem due_sorted (now : τ) (n : ℕ) (q : Q) :
    ((due P now n q).map Prod.fst).Pairwise fun a b => time a ≤ time b := by
  induction n generalizing q with
  | zero => exact List.Pairwise.nil
  | succ n ih =>
    unfold due
    cases hpop : P.pop q with
    | none => exact List.Pairwise.nil
    | some x =>
      simp only
      split_ifs
      · exact List.Pairwise.nil
      · refine List.pairwise_cons.mpr ⟨?_, ih x.2⟩
        intro m hm
        exact (P.pop_some q x.1 x.2 hpop).2 m (mem_of_mem_due P hm)

theorem due_le (now : τ) (n : ℕ) (q : Q) :
    ∀ m ∈ (due P now n q).map Prod.fst, time m ≤ now := by
  induction n generalizing q with
  | zero => exact nofun
  | succ n ih =>
    unfold due
    cases P.pop q with
    | none => exact nofun
    | some x =>
      simp only
      split_ifs with hlater
      · exact nofun
      · intro m hm
        rcases List.mem_cons.mp hm with rfl | hm
        · exact not_lt.mp hlater
        · exact ih x.2 m hm

theorem later_gt (now : τ) {n : ℕ} {q : Q} (h : P.size q ≤ n) :
    ∀ m ∈ P.elems (later P now n q), now < time m := by
  induction n generalizing q with
  | zero =>
    have hzero : P.elems q = 0 := Multiset.card_eq_zero.mp (Nat.le_zero.mp h)
    intro m hm
    rw [later, hzero] at hm
    exact absurd hm (Multiset.notMem_zero m)
  | succ n ih =>
    unfold later
    cases hpop : P.pop q with
    | none =>
      intro m hm
      rw [P.pop_none q hpop] at hm
      exact absurd hm (Multiset.notMem_zero m)
    | some x =>
      simp only
      split_ifs with hlater
      · intro m hm
        exact hlater.trans_le (P.le_of_pop hpop hm)
      · apply ih
        have hcard : P.size q = P.size x.2 + 1 := by
          rw [Queue.size, (P.pop_some q x.1 x.2 hpop).1, Multiset.card_cons]
          rfl
        omega

/-! ### The sorted list -/

section SortedList
variable (time)

abbrev SortedList : Type := {ms : List μ // ms.Pairwise fun a b => time a ≤ time b}

variable {time}

/-- After the elements that are as early: these are handed out in the order of arrival. -/
def insertByTime (time : μ → τ) (m : μ) : List μ → List μ
  | [] => [m]
  | a :: ms => if time m < time a then m :: a :: ms else a :: insertByTime time m ms

theorem insertByTime_perm (m : μ) (ms : List μ) : (insertByTime time m ms).Perm (m :: ms) := by
  induction ms with
  | nil => exact .refl _
  | cons a ms ih =>
    unfold insertByTime
    split_ifs
    · exact .refl _
    · exact (ih.cons a).trans (.swap m a ms)

theorem insertByTime_sorted (m : μ) {ms : List μ}
    (h : ms.Pairwise fun a b => time a ≤ time b) :
    (insertByTime time m ms).Pairwise fun a b => time a ≤ time b := by
  induction ms with
  | nil => exact List.pairwise_singleton _ m
  | cons a ms ih =>
    obtain ⟨ha, hms⟩ := List.pairwise_cons.mp h
    unfold insertByTime
    split_ifs with hlt
    · refine List.pairwise_cons.mpr ⟨?_, h⟩
      intro b hb
      rcases List.mem_cons.mp hb with rfl | hb
      · exact hlt.le
      · exact hlt.le.trans (ha b hb)
    · refine List.pairwise_cons.mpr ⟨?_, ih hms⟩
      intro b hb
      rcases List.mem_cons.mp ((insertByTime_perm m ms).mem_iff.mp hb) with rfl | hb
      · exact not_lt.mp hlt
      · exact ha b hb

def popSorted : SortedList time → Option (μ × SortedList time)
  | ⟨[], _⟩ => none
  | ⟨m :: ms, h⟩ => some (m, ⟨ms, h.of_cons⟩)

def sortedList (time : μ → τ) : Queue (SortedList time) time where
  elems q := q.1
  empty := ⟨[], .nil⟩
  push m q := ⟨insertByTime time m q.1, insertByTime_sorted m q.2⟩
  pop := popSorted
  elems_empty := rfl
  elems_push m q := Multiset.coe_eq_coe.mpr (insertByTime_perm m q.1)
  pop_none
    | ⟨[], _⟩, _ => rfl
  pop_some
    | ⟨m :: ms, h⟩, _, _, rfl => ⟨rfl, (List.pairwise_cons.mp h).1⟩

end SortedList

end TimedQueue
