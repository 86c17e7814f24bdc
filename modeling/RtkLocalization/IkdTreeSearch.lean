import RtkLocalization.IkdTreeRuns
import RtkLocalization.Lib.BinaryHeap
import RtkLocalization.Lib.KLeast

/-!
# `Nearest_Search`

The search keeps the best points so far in a heap, the farthest at the top, and leaves out
the sons whose box is farther than that. The heap compares distances up to 1e-10.
-/

namespace RtkLocalization
namespace IkdTree

open LaserMapping (Point)
open BinaryHeap

/-- `PointType_CMP`. -/
structure PointCmp (K : Type) where
  point : Point K
  dist : K

section Program
variable {K : Type} [Field K] [LinearOrder K]

def PointCmp.less (a b : PointCmp K) : Bool :=
  if |a.dist - b.dist| < 1e-10 then decide (a.point.x < b.point.x) else decide (a.dist < b.dist)

/-- `calc_box_dist` of a son; `none` is `INFINITY`. -/
def sonDist (t : Tree K) (point : Point K) : Option K :=
  t.root?.map fun d => calcBoxDist d.nodeRange point

def nearer : Option K → K → Bool
  | none, _ => false
  | some dist, top => decide (dist < top)

def notAfter : Option K → Option K → Bool
  | _, none => true
  | none, some _ => false
  | some a, some b => decide (a ≤ b)

/-- `max_dist_sqr < dist`. -/
def tooFar (dist : K) : Option K → Bool
  | none => false
  | some maxDist => decide (maxDist * maxDist < dist)

variable (kNearest : ℕ) (point : Point K) (maxDist : Option K)

/-- A node's own point. -/
def visit (p : Point K) (q : Heap (PointCmp K)) : Heap (PointCmp K) :=
  let dist := calcDist (coord point) (coord p)
  if !tooFar dist maxDist && (decide (q.size < kNearest) || decide (dist < q.top.dist)) then
    (if kNearest ≤ q.size then q.pop PointCmp.less else q).push PointCmp.less ⟨p, dist⟩
  else q

def search : Tree K → Heap (PointCmp K) → Tree K × Heap (PointCmp K)
  | .nil, q => (.nil, q)
  | .node d l r, q =>
    if d.treeDeleted || tooFar (calcBoxDist d.nodeRange point) maxDist then (.node d l r, q)
    else
      let q₀ := if d.pointDeleted then q else visit kNearest point maxDist d.point q
      let distLeft := sonDist (pushLeft d l) point
      let distRight := sonDist (pushRight d r) point
      if decide (q₀.size < kNearest) ||
          (nearer distLeft q₀.top.dist && nearer distRight q₀.top.dist) then
        if notAfter distLeft distRight then
          let (l', q₁) := search (pushLeft d l) q₀
          let (r', q₂) :=
            if decide (q₁.size < kNearest) || nearer distRight q₁.top.dist then
              search (pushRight d r) q₁
            else (pushRight d r, q₁)
          (.node (pushed d l r) l' r', q₂)
        else
          let (r', q₁) := search (pushRight d r) q₀
          let (l', q₂) :=
            if decide (q₁.size < kNearest) || nearer distLeft q₁.top.dist then
              search (pushLeft d l) q₁
            else (pushLeft d l, q₁)
          (.node (pushed d l r) l' r', q₂)
      else
        let (l', q₁) :=
          if nearer distLeft q₀.top.dist then search (pushLeft d l) q₀ else (pushLeft d l, q₀)
        let (r', q₂) :=
          if nearer distRight q₁.top.dist then search (pushRight d r) q₁ else (pushRight d r, q₁)
        (.node (pushed d l r) l' r', q₂)
termination_by t => t.count
decreasing_by
  all_goals
    first
      | rw [count_pushLeft, Tree.count]
        omega
      | rw [count_pushRight, Tree.count]
        omega

/-- The top goes to the front of what is found. -/
def drain : ℕ → Heap (PointCmp K) → List (PointCmp K) → List (PointCmp K)
  | 0, _, found => found
  | n + 1, q, found => drain n (q.pop PointCmp.less) (q.top :: found)

/-- `Nearest_Points` with `Point_Distance`; `storage` is what the array of the heap holds before. -/
def nearestSearch (storage : ℕ → PointCmp K) (t : Tree K) : Tree K × List (PointCmp K) :=
  let (t', q) := search kNearest point maxDist t ⟨storage, 0, 2 * kNearest⟩
  (t', drain (min kNearest q.size) q [])

end Program

section Geometry
variable {K : Type} [Field K] [LinearOrder K] [IsStrictOrderedRing K]

theorem beyond_le {lo hi x y : K} (hlo : lo ≤ y) (hhi : y ≤ hi) :
    beyond lo hi x ≤ (x - y) * (x - y) := by
  unfold beyond
  split_ifs with hbelow habove habove
  · linarith
  · nlinarith
  · nlinarith
  · nlinarith [mul_self_nonneg (x - y)]

theorem Hull.calcBoxDist_le {b : Box K} {M : Multiset (Point K)} (h : Hull b M) (point : Point K) :
    ∀ p ∈ M, calcBoxDist b point ≤ calcDist (coord point) (coord p) := by
  intro p hp
  have haxis (i : Fin 3) := beyond_le (x := coord point i) (h.within p hp i).1 (h.within p hp i).2
  exact add_le_add (add_le_add (haxis 0) (haxis 1)) (haxis 2)

end Geometry

section Search
variable {K : Type} [Field K] [LinearOrder K] [IsStrictOrderedRing K]
  {kNearest : ℕ} {point : Point K} {maxDist : Option K} {U : Multiset (Point K)}

/-- Distances that the heap takes for equal are equal. -/
def Separated (point : Point K) (U : Multiset (Point K)) : Prop :=
  ∀ p ∈ U, ∀ q ∈ U,
    |calcDist (coord point) (coord p) - calcDist (coord point) (coord q)| < 1e-10 →
      calcDist (coord point) (coord p) = calcDist (coord point) (coord q)

def Known (point : Point K) (U : Multiset (Point K)) (x : PointCmp K) : Prop :=
  x.point ∈ U ∧ x.dist = calcDist (coord point) (coord x.point)

omit [IsStrictOrderedRing K] in
theorem respects_less (hsep : Separated point U) :
    Respects PointCmp.less PointCmp.dist (Known point U) := by
  intro a b ha hb
  have hequal : |a.dist - b.dist| < 1e-10 → a.dist = b.dist := by
    intro hclose
    rw [ha.2, hb.2] at hclose ⊢
    exact hsep _ ha.1 _ hb.1 hclose
  unfold PointCmp.less
  split_ifs with hclose hx hlt
  · exact (hequal hclose).le
  · exact (hequal hclose).ge
  · exact (of_decide_eq_true hlt).le
  · exact not_lt.mp fun h => hlt (decide_eq_true h)

structure Good (kNearest : ℕ) (point : Point K) (U : Multiset (Point K))
    (q : Heap (PointCmp K)) : Prop where
  ordered : Ordered PointCmp.dist q.size q.entries
  size : q.size ≤ kNearest
  cap : kNearest ≤ q.cap
  known : ∀ x ∈ q.contents, Known point U x

/-- The points within the greatest distance, with their distances. -/
def candidates (point : Point K) (maxDist : Option K) (M : Multiset (Point K)) :
    Multiset (PointCmp K) :=
  (M.filter fun p => tooFar (calcDist (coord point) (coord p)) maxDist = false).map
    fun p => ⟨p, calcDist (coord point) (coord p)⟩

omit [IsStrictOrderedRing K] in
theorem candidates_add (M N : Multiset (Point K)) :
    candidates point maxDist (M + N) = candidates point maxDist M + candidates point maxDist N := by
  rw [candidates, Multiset.filter_add, Multiset.map_add]
  rfl

omit [IsStrictOrderedRing K] in
theorem candidates_zero : candidates point maxDist 0 = 0 := rfl

omit [IsStrictOrderedRing K] in
theorem mem_candidates {M : Multiset (Point K)} {x : PointCmp K}
    (h : x ∈ candidates point maxDist M) :
    x.point ∈ M ∧ x.dist = calcDist (coord point) (coord x.point) ∧
      tooFar x.dist maxDist = false := by
  obtain ⟨p, hp, rfl⟩ := Multiset.mem_map.mp h
  obtain ⟨hM, hnear⟩ := Multiset.mem_filter.mp hp
  exact ⟨hM, rfl, hnear⟩

omit [IsStrictOrderedRing K] in
theorem visit_spec (hsep : Separated point U) {p : Point K} (hp : p ∈ U) (hk : 0 < kNearest)
    {q : Heap (PointCmp K)} (hq : Good kNearest point U q) :
    Good kNearest point U (visit kNearest point maxDist p q) ∧
      KLeast PointCmp.dist kNearest (q.contents + candidates point maxDist {p})
        (visit kNearest point maxDist p q).contents := by
  have hless := respects_less hsep
  have hsize := hq.size
  have hcap := hq.cap
  have hcard := q.card_contents
  set x : PointCmp K := ⟨p, calcDist (coord point) (coord p)⟩ with hx
  have hknown : Known point U x := ⟨hp, rfl⟩
  have hfull : KLeast PointCmp.dist kNearest q.contents q.contents :=
    KLeast.refl (by rw [hcard]; exact hsize)
  unfold visit
  dsimp only
  cases hfar : tooFar (calcDist (coord point) (coord p)) maxDist with
  | true =>
    have hnone : candidates point maxDist {p} = 0 := by
      rw [candidates, Multiset.filter_singleton, if_neg (by rw [hfar]; exact Bool.noConfusion)]
      rfl
    rw [hnone, add_zero]
    exact ⟨hq, hfull⟩
  | false =>
    have hone : candidates point maxDist {p} = {x} := by
      rw [candidates, Multiset.filter_singleton, if_pos hfar, Multiset.map_singleton]
    rw [hone, add_comm, Multiset.singleton_add, Bool.not_false, Bool.true_and]
    by_cases hroom : q.size < kNearest
    · rw [if_pos (by rw [decide_eq_true hroom]; rfl), if_neg (not_le.mpr hroom)]
      obtain ⟨hordered, hcontents, hsize', hcap'⟩ :=
        Heap.push_spec hless (hroom.trans_le hcap) hq.known hq.ordered hknown
      refine ⟨⟨hordered, hsize'.le.trans hroom, hcap.trans hcap'.ge, ?_⟩, ?_⟩
      · rw [hcontents]
        exact fun y hy => (Multiset.mem_cons.mp hy).elim (fun h => h ▸ hknown) (hq.known y)
      · rw [hcontents]
        refine KLeast.refl ?_
        rw [Multiset.card_cons]
        omega
    rw [decide_eq_false hroom, Bool.false_or]
    have hpos : 0 < q.size := by omega
    by_cases hbetter : calcDist (coord point) (coord p) < q.top.dist
    · rw [if_pos (decide_eq_true hbetter), if_pos (not_lt.mp hroom)]
      obtain ⟨hordered, hcontents, hsize', hcap'⟩ :=
        Heap.pop_spec hless hpos hq.known hq.ordered
      have hknown' : ∀ y ∈ (q.pop PointCmp.less).contents, Known point U y := by
        intro y hy
        refine hq.known y ?_
        rw [hcontents]
        exact Multiset.mem_cons_of_mem hy
      obtain ⟨hordered', hcontents', hsize'', hcap''⟩ :=
        Heap.push_spec hless (by omega) hknown' hordered hknown
      refine ⟨⟨hordered', hsize''.le.trans (by omega), (hcap.trans hcap'.ge).trans hcap''.ge, ?_⟩,
        ?_⟩
      · rw [hcontents']
        exact fun y hy => (Multiset.mem_cons.mp hy).elim (fun h => h ▸ hknown) (hknown' y)
      · rw [hcontents', hcontents]
        refine KLeast.replace ?_ (fun y hy => Heap.le_top hq.ordered y ?_) hbetter.le
        · rw [Heap.card_contents]
          omega
        · rw [hcontents]
          exact Multiset.mem_cons_of_mem hy
    · rw [if_neg (by rw [decide_eq_false hbetter]; exact Bool.noConfusion)]
      refine ⟨hq, ?_⟩
      rw [← Multiset.singleton_add, add_comm]
      refine KLeast.prune (by omega) fun y hy z hz => ?_
      rw [Multiset.mem_singleton.mp hz]
      exact (Heap.le_top hq.ordered y hy).trans (not_lt.mp hbetter)

/-- What a search of `t` from the heap `q` comes to. -/
structure Searched (kNearest : ℕ) (point : Point K) (maxDist : Option K) (U : Multiset (Point K))
    (t : Tree K) (q : Heap (PointCmp K)) (result : Tree K × Heap (PointCmp K)) : Prop where
  inv : Inv result.1
  live : live result.1 = live t
  count : result.1.count = t.count
  good : Good kNearest point U result.2
  least : KLeast PointCmp.dist kNearest (q.contents + candidates point maxDist (IkdTree.live t))
    result.2.contents

/-- A son may be left out when the heap is full and its box is no nearer than the top. -/
theorem Searched.skip {t : Tree K} (ht : Inv t) {q : Heap (PointCmp K)}
    (hq : Good kNearest point U q) (hfull : ¬ q.size < kNearest)
    (hfar : ¬ nearer (sonDist t point) q.top.dist = true) :
    Searched kNearest point maxDist U t q (t, q) := by
  refine ⟨ht, rfl, rfl, hq, KLeast.prune ?_ fun x hx y hy => ?_⟩
  · rw [Heap.card_contents]
    have := hq.size
    omega
  · obtain ⟨hmem, hdist, -⟩ := mem_candidates hy
    refine (Heap.le_top hq.ordered x hx).trans ?_
    rw [hdist]
    cases t with
    | nil => exact absurd hmem (Multiset.notMem_zero _)
    | node d l r =>
      cases hdead : d.treeDeleted with
      | true =>
        rw [live_of_deleted hdead] at hmem
        exact absurd hmem (Multiset.notMem_zero _)
      | false =>
        refine le_trans ?_ ((ht.2.2.hull hdead).calcBoxDist_le point _ hmem)
        exact not_lt.mp fun h => hfar (decide_eq_true h)

theorem Searched.orSkip {t : Tree K} (ht : Inv t) {q : Heap (PointCmp K)}
    (hq : Good kNearest point U q) {b : Bool} {result : Tree K × Heap (PointCmp K)}
    (h : Searched kNearest point maxDist U t q result)
    (hb : ¬ b = true → ¬ q.size < kNearest ∧ ¬ nearer (sonDist t point) q.top.dist = true) :
    Searched kNearest point maxDist U t q (if b then result else (t, q)) := by
  split_ifs with hcond
  · exact h
  · exact Searched.skip ht hq (hb hcond).1 (hb hcond).2

omit [IsStrictOrderedRing K] in
theorem tooFar_mono {maxDist : Option K} {a b : K} (h : a ≤ b) (ha : tooFar a maxDist = true) :
    tooFar b maxDist = true := by
  cases maxDist with
  | none => exact ha
  | some m => exact decide_eq_true ((of_decide_eq_true ha).trans_le h)

omit [Field K] [IsStrictOrderedRing K] in
theorem live_subset_left {d : Node K} {l r : Tree K} (h : Inv (.node d l r)) :
    ∀ p ∈ live (pushLeft d l), p ∈ live (.node d l r) := by
  intro p hp
  rw [live_eq_pushed h]
  exact Multiset.mem_add.mpr (Or.inl (Multiset.mem_add.mpr (Or.inr hp)))

omit [Field K] [IsStrictOrderedRing K] in
theorem live_subset_right {d : Node K} {l r : Tree K} (h : Inv (.node d l r)) :
    ∀ p ∈ live (pushRight d r), p ∈ live (.node d l r) := by
  intro p hp
  rw [live_eq_pushed h]
  exact Multiset.mem_add.mpr (Or.inr hp)

omit [IsStrictOrderedRing K] in
/-- Own point, then both sons in either order. -/
theorem Searched.node {d : Node K} {l r : Tree K} (ht : Inv (.node d l r))
    {q q₀ qₗ qᵣ q₂ : Heap (PointCmp K)} {fromLeft fromRight : Tree K × Heap (PointCmp K)}
    (hown : KLeast PointCmp.dist kNearest (q.contents + candidates point maxDist
      (if d.pointDeleted then 0 else {d.point})) q₀.contents)
    (hl : Searched kNearest point maxDist U (pushLeft d l) qₗ fromLeft)
    (hr : Searched kNearest point maxDist U (pushRight d r) qᵣ fromRight)
    (horder : (qₗ = q₀ ∧ qᵣ = fromLeft.2 ∧ q₂ = fromRight.2) ∨
      (qᵣ = q₀ ∧ qₗ = fromRight.2 ∧ q₂ = fromLeft.2)) :
    Searched kNearest point maxDist U (.node d l r) q
      (.node (pushed d l r) fromLeft.1 fromRight.1, q₂) := by
  have hcountl : fromLeft.1.count = l.count := hl.count.trans (count_pushLeft d l)
  have hcountr : fromRight.1.count = r.count := hr.count.trans (count_pushRight d r)
  obtain ⟨hinv, hsame⟩ := inv_pushed ht hl.inv hr.inv hl.live hr.live hcountl hcountr
  have hleast : KLeast PointCmp.dist kNearest
      (q.contents + candidates point maxDist (IkdTree.live (.node d l r))) q₂.contents := by
    rw [live_eq_pushed ht, candidates_add, candidates_add, ← add_assoc, ← add_assoc]
    rcases horder with ⟨rfl, rfl, rfl⟩ | ⟨rfl, rfl, rfl⟩
    · exact (hown.trans hl.least).trans hr.least
    · rw [add_right_comm]
      exact (hown.trans hr.least).trans hl.least
  have hgood : Good kNearest point U q₂ := by
    rcases horder with ⟨-, -, rfl⟩ | ⟨-, -, rfl⟩
    · exact hr.good
    · exact hl.good
  refine ⟨hinv, hsame, ?_, hgood, hleast⟩
  rw [Tree.count, Tree.count, hcountl, hcountr]

theorem search_spec (maxDist : Option K) (hsep : Separated point U) (hk : 0 < kNearest)
    {t : Tree K} (ht : Inv t) (hU : ∀ p ∈ live t, p ∈ U) {q : Heap (PointCmp K)} (hq : Good kNearest point U q) :
    Searched kNearest point maxDist U t q (search kNearest point maxDist t q) := by
  have hnothing {t : Tree K} (ht : Inv t) {q : Heap (PointCmp K)}
      (hq : Good kNearest point U q) (hnone : candidates point maxDist (live t) = 0) :
      Searched kNearest point maxDist U t q (t, q) := by
    refine ⟨ht, rfl, rfl, hq, ?_⟩
    rw [hnone, add_zero]
    exact KLeast.refl (by rw [Heap.card_contents]; exact hq.size)
  induction t using Tree.push_induction generalizing q with
  | nil =>
    rw [search]
    exact hnothing ht hq rfl
  | node d l r ihl ihr =>
    rw [search]
    dsimp only
    by_cases hout : (d.treeDeleted || tooFar (calcBoxDist d.nodeRange point) maxDist) = true
    · rw [if_pos hout]
      refine hnothing ht hq ?_
      cases hdead : d.treeDeleted with
      | true => rw [live_of_deleted hdead, candidates_zero]
      | false =>
        rw [hdead, Bool.false_or] at hout
        rw [candidates, Multiset.map_eq_zero, Multiset.filter_eq_nil]
        intro p hp
        rw [tooFar_mono ((ht.2.2.hull hdead).calcBoxDist_le point p hp) hout]
        exact Bool.noConfusion
    rw [if_neg hout]
    have hinvl := (inv_pushLeft ht).1
    have hinvr := (inv_pushRight ht).1
    have hleft {q : Heap (PointCmp K)} (hq : Good kNearest point U q) :=
      ihl hinvl (fun p hp => hU p (live_subset_left ht p hp)) hq
    have hright {q : Heap (PointCmp K)} (hq : Good kNearest point U q) :=
      ihr hinvr (fun p hp => hU p (live_subset_right ht p hp)) hq
    obtain ⟨hq₀, hown⟩ : Good kNearest point U
          (if d.pointDeleted then q else visit kNearest point maxDist d.point q) ∧
        KLeast PointCmp.dist kNearest (q.contents + candidates point maxDist
          (if d.pointDeleted then 0 else {d.point}))
          (if d.pointDeleted then q else visit kNearest point maxDist d.point q).contents := by
      cases hpoint : d.pointDeleted with
      | true =>
        refine ⟨hq, ?_⟩
        rw [if_pos rfl, if_pos rfl, candidates_zero, add_zero]
        exact KLeast.refl (by rw [Heap.card_contents]; exact hq.size)
      | false =>
        refine visit_spec hsep (hU d.point ?_) hk hq
        rw [live_eq_pushed ht, hpoint, if_neg Bool.false_ne_true]
        simp
    generalize (if d.pointDeleted then q else visit kNearest point maxDist d.point q) = q₀ at *
    by_cases hopen : (decide (q₀.size < kNearest) ||
        (nearer (sonDist (pushLeft d l) point) q₀.top.dist &&
          nearer (sonDist (pushRight d r) point) q₀.top.dist)) = true
    · rw [if_pos hopen]
      by_cases hfirst : notAfter (sonDist (pushLeft d l) point) (sonDist (pushRight d r) point) = true
      · rw [if_pos hfirst]
        have hl := hleft hq₀
        refine Searched.node ht hown hl (Searched.orSkip hinvr hl.good (hright hl.good) ?_)
          (Or.inl ⟨rfl, rfl, rfl⟩)
        rw [Bool.or_eq_true, decide_eq_true_iff, not_or]
        exact id
      · rw [if_neg hfirst]
        have hr := hright hq₀
        refine Searched.node ht hown (Searched.orSkip hinvl hr.good (hleft hr.good) ?_) hr
          (Or.inr ⟨rfl, rfl, rfl⟩)
        rw [Bool.or_eq_true, decide_eq_true_iff, not_or]
        exact id
    · -- The heap is full, and stays so.
      rw [if_neg hopen]
      rw [Bool.or_eq_true, decide_eq_true_iff, not_or] at hopen
      have hl : Searched kNearest point maxDist U (pushLeft d l) q₀
          (if nearer (sonDist (pushLeft d l) point) q₀.top.dist then
            search kNearest point maxDist (pushLeft d l) q₀
          else (pushLeft d l, q₀)) :=
        Searched.orSkip hinvl hq₀ (hleft hq₀) fun hfar => ⟨hopen.1, hfar⟩
      refine Searched.node ht hown hl (Searched.orSkip hinvr hl.good (hright hl.good) ?_)
        (Or.inl ⟨rfl, rfl, rfl⟩)
      refine fun hfar => ⟨?_, hfar⟩
      have hcard := hl.least.card
      rw [Heap.card_contents, Multiset.card_add, Heap.card_contents] at hcard
      omega

omit [IsStrictOrderedRing K] in
theorem drain_spec (hsep : Separated point U) (n : ℕ) {q : Heap (PointCmp K)}
    (hq : Good kNearest point U q) (hn : q.size = n) {found : List (PointCmp K)}
    (hsorted : found.Pairwise fun a b => a.dist ≤ b.dist)
    (hafter : ∀ x ∈ q.contents, ∀ y ∈ found, x.dist ≤ y.dist) :
    (drain n q found).Pairwise (fun a b => a.dist ≤ b.dist) ∧
      (drain n q found : Multiset (PointCmp K)) = q.contents + found := by
  induction n generalizing q found with
  | zero =>
    have hempty : q.contents = 0 := Multiset.card_eq_zero.mp (q.card_contents.trans hn)
    rw [drain, hempty, zero_add]
    exact ⟨hsorted, rfl⟩
  | succ n ih =>
    obtain ⟨hordered, hcontents, hsize, hcap⟩ :=
      Heap.pop_spec (respects_less hsep) (by omega) hq.known hq.ordered
    have hmem : ∀ x ∈ (q.pop PointCmp.less).contents, x ∈ q.contents := by
      intro x hx
      rw [hcontents]
      exact Multiset.mem_cons_of_mem hx
    have hgood : Good kNearest point U (q.pop PointCmp.less) :=
      ⟨hordered, hsize.le.trans (by have := hq.size; omega), hq.cap.trans hcap.ge,
        fun x hx => hq.known x (hmem x hx)⟩
    have htop : q.top ∈ q.contents := by
      rw [hcontents]
      exact Multiset.mem_cons_self _ _
    have hsorted' : (q.top :: found).Pairwise fun a b => a.dist ≤ b.dist :=
      List.pairwise_cons.mpr ⟨hafter q.top htop, hsorted⟩
    have hafter' : ∀ x ∈ (q.pop PointCmp.less).contents, ∀ y ∈ q.top :: found,
        x.dist ≤ y.dist := by
      intro x hx y hy
      rcases List.mem_cons.mp hy with rfl | hy
      · exact Heap.le_top hq.ordered x (hmem x hx)
      · exact hafter x (hmem x hx) y hy
    obtain ⟨hresult, hsame⟩ := ih hgood (by omega) hsorted' hafter'
    refine ⟨hresult, hsame.trans ?_⟩
    rw [hcontents, ← Multiset.cons_coe, Multiset.add_cons, Multiset.cons_add]

end Search

end IkdTree
end RtkLocalization
