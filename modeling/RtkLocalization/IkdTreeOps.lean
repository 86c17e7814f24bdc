import RtkLocalization.IkdTreeInvariant
import Mathlib.Tactic.Abel

/-!
# The operations on the multiset

Each operation keeps the invariant, and does to `live` what its name says.
-/

namespace RtkLocalization
namespace IkdTree

open LaserMapping (Point)

section Functions
variable {K : Type} [LinearOrder K]

theorem inv_flatten {t : Tree K} (ht : Inv t) :
    Inv (flatten t).1 ∧ live (flatten t).1 = live t ∧
      ((flatten t).2 : Multiset (Point K)) = live t ∧ (flatten t).1.count = t.count := by
  induction t using Tree.push_induction with
  | nil =>
    rw [flatten]
    exact ⟨trivial, rfl, rfl, rfl⟩
  | node d l r ihl ihr =>
    obtain ⟨hl, hlive, hpoints, hcount⟩ := ihl (inv_pushLeft ht).1
    obtain ⟨hr, hlive', hpoints', hcount'⟩ := ihr (inv_pushRight ht).1
    rw [count_pushLeft] at hcount
    rw [count_pushRight] at hcount'
    rw [flatten]
    obtain ⟨hinv, hsame⟩ := inv_pushed ht hl hr hlive hlive' hcount hcount'
    refine ⟨hinv, hsame, ?_, ?_⟩
    · rw [live_eq_pushed ht, ← hpoints, ← hpoints', ← Multiset.coe_add, ← Multiset.coe_add]
      split_ifs <;> rfl
    · rw [Tree.count, Tree.count, hcount, hcount']

theorem inv_newNode (point : Point K) (axis : Fin 3) {l r : Tree K} (hl : Inv l) (hr : Inv r) :
    Inv (newNode point axis l r) ∧ live (newNode point axis l r) = {point} + live l + live r :=
  inv_update hl hr (fun h => absurd h Bool.false_ne_true) (fun h => absurd h Bool.false_ne_true)
    (fun h => absurd h Bool.false_ne_true)

theorem covers_iff {box range : Box K} :
    covers box range = true ↔
      ∀ i, box.vertexMin i ≤ range.vertexMin i ∧ range.vertexMax i < box.vertexMax i :=
  decide_eq_true_iff

theorem inBox_iff {box : Box K} {p : Point K} :
    inBox box p = true ↔ ∀ i, box.vertexMin i ≤ coord p i ∧ coord p i < box.vertexMax i :=
  decide_eq_true_iff

theorem Hull.not_inBox {box b : Box K} {M : Multiset (Point K)} (h : Hull b M)
    (hmiss : misses box b = true) : ∀ p ∈ M, ¬ inBox box p = true := by
  intro p hp hin
  obtain ⟨i, hi⟩ := decide_eq_true_iff.mp hmiss
  obtain ⟨hmin, hmax⟩ := h.within p hp i
  obtain ⟨hlo, hhi⟩ := inBox_iff.mp hin i
  rcases hi with hi | hi
  · exact absurd (hhi.trans_le hi) (not_lt.mpr hmin)
  · exact absurd (hi.trans_le hlo) (not_lt.mpr hmax)

theorem Hull.covers_iff {box b : Box K} {M : Multiset (Point K)} (h : Hull b M) :
    covers box b = true ↔ ∀ p ∈ M, inBox box p = true := by
  rw [IkdTree.covers_iff]
  constructor
  · intro hcover p hp
    refine inBox_iff.mpr fun i => ?_
    exact ⟨(hcover i).1.trans (h.within p hp i).1, (h.within p hp i).2.trans_lt (hcover i).2⟩
  · intro hin i
    obtain ⟨p, hp, hmin⟩ := h.least i
    obtain ⟨q, hq, hmax⟩ := h.greatest i
    exact ⟨hmin ▸ (inBox_iff.mp (hin p hp) i).1, hmax ▸ (inBox_iff.mp (hin q hq) i).2⟩

/-- The points of a box, whatever the flags are. -/
theorem filter_of_misses {d : Node K} {l r : Tree K} (h : Inv (.node d l r)) {box : Box K}
    (hmiss : misses box d.nodeRange = true) :
    (live (.node d l r)).filter (fun p => inBox box p = true) = 0 := by
  cases hdead : d.treeDeleted with
  | true => rw [live_of_deleted hdead, Multiset.filter_zero]
  | false => exact Multiset.filter_eq_nil.mpr ((h.2.2.hull hdead).not_inBox hmiss)

theorem filter_of_covers {d : Node K} {l r : Tree K} (h : Inv (.node d l r)) {box : Box K}
    (hcover : covers box d.nodeRange = true) :
    (live (.node d l r)).filter (fun p => inBox box p = true) = live (.node d l r) := by
  cases hdead : d.treeDeleted with
  | true => rw [live_of_deleted hdead, Multiset.filter_zero]
  | false => exact Multiset.filter_eq_self.mpr ((h.2.2.hull hdead).covers_iff.mp hcover)

theorem coe_ownInBox (box : Box K) (d : Node K) :
    ((if inBox box d.point && !d.pointDeleted then [d.point] else [] : List (Point K)) :
        Multiset (Point K))
      = (if d.pointDeleted then 0 else {d.point} : Multiset (Point K)).filter
          (fun p => inBox box p = true) := by
  cases d.pointDeleted with
  | true => simp
  | false => by_cases hin : inBox box d.point = true <;> simp [hin, Multiset.filter_singleton]

theorem inv_searchByRange (box : Box K) {t : Tree K} (ht : Inv t) :
    Inv (searchByRange box t).1 ∧ live (searchByRange box t).1 = live t ∧
      ((searchByRange box t).2 : Multiset (Point K))
        = (live t).filter (fun p => inBox box p = true) ∧
      (searchByRange box t).1.count = t.count := by
  induction t using Tree.push_induction with
  | nil =>
    rw [searchByRange]
    exact ⟨trivial, rfl, rfl, rfl⟩
  | node d l r ihl ihr =>
    have hleft := inv_pushLeft ht
    have hright := inv_pushRight ht
    obtain ⟨hpushed, hsame⟩ := inv_pushed ht hleft.1 hright.1 rfl rfl (count_pushLeft d l)
      (count_pushRight d r)
    have hcount : (Tree.node (pushed d l r) (pushLeft d l) (pushRight d r)).count
        = (Tree.node d l r).count := by
      rw [Tree.count, Tree.count, count_pushLeft, count_pushRight]
    rw [searchByRange]
    by_cases hmiss : misses box d.nodeRange = true
    · rw [if_pos hmiss]
      exact ⟨hpushed, hsame, (filter_of_misses ht hmiss).symm, hcount⟩
    rw [if_neg hmiss]
    by_cases hcover : covers box d.nodeRange = true
    · rw [if_pos hcover]
      obtain ⟨hinv, hlive, hpoints, hcount'⟩ := inv_flatten hpushed
      refine ⟨hinv, hlive.trans hsame, ?_, hcount'.trans hcount⟩
      rw [filter_of_covers ht hcover, hpoints, hsame]
    rw [if_neg hcover]
    obtain ⟨hl, hlive, hpoints, hcountl⟩ := ihl hleft.1
    obtain ⟨hr, hlive', hpoints', hcountr⟩ := ihr hright.1
    rw [count_pushLeft] at hcountl
    rw [count_pushRight] at hcountr
    obtain ⟨hinv, hsame'⟩ := inv_pushed ht hl hr hlive hlive' hcountl hcountr
    refine ⟨hinv, hsame', ?_, ?_⟩
    · rw [live_eq_pushed ht, Multiset.filter_add, Multiset.filter_add, ← hpoints, ← hpoints',
        ← coe_ownInBox, Multiset.coe_add, Multiset.coe_add]
    · rw [Tree.count, Tree.count, hcountl, hcountr]

omit [LinearOrder K] in
theorem ne_nil_of_live {t : Tree K} (h : live t ≠ 0) : t ≠ .nil := by
  rintro rfl
  exact h rfl

theorem inv_allDeleted (isDownsample : Bool) {d : Node K} {l r : Tree K} (hl : Inv l) (hr : Inv r)
    (hsize : d.treeSize = l.count + r.count + 1) :
    Inv (.node (allDeleted isDownsample d) l r) :=
  ⟨hl, hr, {
    treeSize := hsize
    valid := sub_self _
    alive := fun h => absurd (show true = false from h) (by decide)
    pointDead := fun _ => rfl
    leftDead := fun _ => Or.inl rfl
    rightDead := fun _ => Or.inl rfl
    leftFresh := fun _ => Or.inl rfl
    rightFresh := fun _ => Or.inl rfl
    treeDownsample := fun _ => rfl
    pointDownsample := fun _ => rfl
    hull := fun h => absurd (show true = false from h) (by decide) }⟩

/-- The node after the test of its own point. -/
def tested (box : Box K) (isDownsample : Bool) (d d' : Node K) : Node K :=
  if !d.pointDeleted && inBox box d.point then deletePoint isDownsample d' else d'

theorem own_tested (box : Box K) (isDownsample : Bool) (d d' : Node K)
    (hpoint : d'.point = d.point) (hdeleted : d'.pointDeleted = d.pointDeleted) :
    (if (tested box isDownsample d d').pointDeleted then 0
        else {(tested box isDownsample d d').point} : Multiset (Point K))
      = (if d.pointDeleted then 0 else {d.point} : Multiset (Point K)).filter
          (fun p => ¬ inBox box p = true) := by
  unfold tested
  cases hd : d.pointDeleted with
  | true => simp [hdeleted, hd]
  | false =>
    by_cases hin : inBox box d.point = true <;>
      simp [hin, hdeleted, hd, hpoint, deletePoint, Multiset.filter_singleton]

theorem card_tested (box : Box K) (d : Node K) :
    (if !d.pointDeleted && inBox box d.point then 1 else 0 : ℤ)
      = ((if d.pointDeleted then 0 else {d.point} : Multiset (Point K)).filter
          (fun p => inBox box p = true)).card := by
  cases hd : d.pointDeleted with
  | true => simp
  | false => by_cases hin : inBox box d.point = true <;> simp [hin, Multiset.filter_singleton]

theorem fresh_newNode (point : Point K) (axis : Fin 3) : Fresh (newNode point axis .nil .nil) :=
  ⟨rfl, rfl, rfl, rfl, rfl, rfl, rfl⟩

omit [LinearOrder K] in
theorem fresh_of_nil {t : Tree K} (h : t = .nil) : Fresh t := by
  rw [h]
  trivial

end Functions

section Rebuilding
variable {K : Type} [Field K] [LinearOrder K] (nth : NthElement K) (params : Params K)

theorem inv_buildTree (xs : List (Point K)) :
    Inv (buildTree nth xs) ∧ live (buildTree nth xs) = xs := by
  induction hn : xs.length using Nat.strong_induction_on generalizing xs with
  | _ n ih =>
    cases xs with
    | nil =>
      rw [buildTree]
      exact ⟨trivial, rfl⟩
    | cons first rest =>
      rw [buildTree]
      have hperm := nth.perm (coord · (longestAxis first rest)) (rest.length / 2) (first :: rest)
      set sorted := nth.run (coord · (longestAxis first rest)) (rest.length / 2) (first :: rest)
      have hlength : sorted.length = rest.length + 1 := hperm.length_eq
      rw [List.length_cons] at hn
      split
      · rename_i hdrop
        have hnone := congrArg List.length hdrop
        rw [List.length_drop, List.length_nil] at hnone
        omega
      · rename_i point upper hdrop
        have hupper := congrArg List.length hdrop
        rw [List.length_drop, List.length_cons] at hupper
        have hlower : (sorted.take (rest.length / 2)).length < n := by
          rw [List.length_take]
          omega
        obtain ⟨hl, hlive⟩ := ih _ hlower _ rfl
        obtain ⟨hr, hlive'⟩ := ih upper.length (by omega) upper rfl
        obtain ⟨hinv, hnode⟩ := inv_newNode point (longestAxis first rest) hl hr
        refine ⟨hinv, ?_⟩
        rw [hnode, hlive, hlive', ← Multiset.coe_eq_coe.mpr hperm]
        conv_rhs => rw [← List.take_append_drop (rest.length / 2) sorted, hdrop]
        rw [← Multiset.coe_add, ← Multiset.cons_coe, ← Multiset.singleton_add]
        abel

theorem inv_rebalance (allowRebuild : Bool) {t : Tree K} (ht : Inv t) :
    Inv (rebalance nth params allowRebuild t) ∧
      live (rebalance nth params allowRebuild t) = live t := by
  unfold rebalance rebuild
  split_ifs
  · exact ⟨ht, rfl⟩
  · obtain ⟨hinv, hlive⟩ := inv_buildTree nth (flatten t).2
    exact ⟨hinv, hlive.trans (inv_flatten ht).2.2.1⟩
  · exact ⟨ht, rfl⟩

/-- `Delete_by_range` deletes the points in the box, counts them and leaves no empty tree. -/
theorem inv_deleteByRange (box : Box K) (allowRebuild isDownsample : Bool) {t : Tree K}
    (ht : Inv t) :
    Inv (deleteByRange nth params box allowRebuild isDownsample t).1 ∧
      live (deleteByRange nth params box allowRebuild isDownsample t).1
        = (live t).filter (fun p => ¬ inBox box p = true) ∧
      (deleteByRange nth params box allowRebuild isDownsample t).2
        = ((live t).filter (fun p => inBox box p = true)).card ∧
      (t ≠ .nil → (deleteByRange nth params box allowRebuild isDownsample t).1 ≠ .nil) ∧
      (t = .nil → (deleteByRange nth params box allowRebuild isDownsample t).1 = .nil) := by
  induction t using Tree.push_induction with
  | nil =>
    rw [deleteByRange]
    exact ⟨trivial, rfl, rfl, fun h => absurd rfl h, fun _ => rfl⟩
  | node d l r ihl ihr =>
    have hleft := inv_pushLeft ht
    have hright := inv_pushRight ht
    have hsound := ht.2.2
    obtain ⟨hpushed, hsame⟩ := inv_pushed ht hleft.1 hright.1 rfl rfl (count_pushLeft d l)
      (count_pushRight d r)
    have hnode (d : Node K) (l r : Tree K) : Tree.node d l r ≠ .nil := fun h => by cases h
    rw [deleteByRange]
    by_cases hdead : d.treeDeleted = true
    · rw [if_pos hdead, live_of_deleted hdead]
      exact ⟨ht, rfl, rfl, fun _ => hnode _ _ _, fun h => absurd h (hnode _ _ _)⟩
    rw [if_neg hdead]
    rw [Bool.not_eq_true] at hdead
    by_cases hmiss : misses box d.nodeRange = true
    · rw [if_pos hmiss]
      have hnone := Multiset.filter_eq_nil.mp (filter_of_misses ht hmiss)
      refine ⟨hpushed, ?_, ?_, fun _ => hnode _ _ _, fun h => absurd h (hnode _ _ _)⟩
      · rw [Multiset.filter_eq_self.mpr hnone]
        exact hsame
      · rw [filter_of_misses ht hmiss]
        rfl
    rw [if_neg hmiss]
    by_cases hcover : covers box d.nodeRange = true
    · rw [if_pos hcover]
      have hall := (hsound.hull hdead).covers_iff.mp hcover
      have hsize : (pushed d l r).treeSize = (pushLeft d l).count + (pushRight d r).count + 1 := by
        rw [count_pushLeft, count_pushRight]
        exact hsound.treeSize
      refine ⟨inv_allDeleted isDownsample hleft.1 hright.1 hsize, ?_, ?_, fun _ => hnode _ _ _,
        fun h => absurd h (hnode _ _ _)⟩
      · rw [Multiset.filter_eq_nil.mpr fun p hp => not_not.mpr (hall p hp)]
        exact live_of_deleted rfl _ _
      · rw [filter_of_covers ht hcover]
        exact hsound.valid
    rw [if_neg hcover]
    obtain ⟨hl, hlive, hcount, -, hnil⟩ := ihl hleft.1
    obtain ⟨hr, hlive', hcount', -, hnil'⟩ := ihr hright.1
    set l' := (deleteByRange nth params box allowRebuild isDownsample (pushLeft d l)).1
    set r' := (deleteByRange nth params box allowRebuild isDownsample (pushRight d r)).1
    have hflagl : (tested box isDownsample d (pushed d l r)).needPushDownToLeft
        = (pushed d l r).needPushDownToLeft := by
      unfold tested
      split_ifs <;> rfl
    have hflagr : (tested box isDownsample d (pushed d l r)).needPushDownToRight
        = (pushed d l r).needPushDownToRight := by
      unfold tested
      split_ifs <;> rfl
    have hdownsample : (tested box isDownsample d (pushed d l r)).pointDownsampleDeleted = true →
        (tested box isDownsample d (pushed d l r)).pointDeleted = true := by
      unfold tested
      split_ifs
      · exact fun _ => rfl
      · exact hsound.pointDownsample
    obtain ⟨hinv, hnodeLive⟩ := inv_update hl hr hdownsample
      (fun h => by
        have hson : l = .nil := pushed_left (hflagl.symm.trans h)
        have hnone : pushLeft d l = .nil := by rw [hson, pushLeft_nil]
        rw [hnil hnone]
        trivial)
      (fun h => by
        have hson : r = .nil := pushed_right (hflagr.symm.trans h)
        have hnone : pushRight d r = .nil := by rw [hson, pushRight_nil]
        rw [hnil' hnone]
        trivial)
    obtain ⟨hbalanced, hsameLive⟩ := inv_rebalance nth params allowRebuild hinv
    have hresult : live (rebalance nth params allowRebuild
        (.node (update (tested box isDownsample d (pushed d l r)) l' r') l' r'))
        = (live (.node d l r)).filter (fun p => ¬ inBox box p = true) := by
      rw [hsameLive, hnodeLive, own_tested box isDownsample d (pushed d l r) rfl rfl, hlive, hlive',
        live_eq_pushed ht, Multiset.filter_add, Multiset.filter_add]
    refine ⟨hbalanced, hresult, ?_, fun _ => ?_, fun h => absurd h (hnode _ _ _)⟩
    · change (if _ then (1 : ℤ) else 0) + _ + _ = _
      rw [card_tested, hcount, hcount', live_eq_pushed ht, Multiset.filter_add,
        Multiset.filter_add, Multiset.card_add, Multiset.card_add, Nat.cast_add, Nat.cast_add]
    · -- Were nothing left, the box would cover the range.
      refine ne_nil_of_live ?_
      change live (rebalance nth params allowRebuild
        (.node (update (tested box isDownsample d (pushed d l r)) l' r') l' r')) ≠ 0
      rw [hresult]
      intro hzero
      refine hcover ((hsound.hull hdead).covers_iff.mpr fun p hp => ?_)
      exact not_not.mp (Multiset.filter_eq_nil.mp hzero p hp)

/-- `Add_by_point` adds the point. -/
theorem inv_addByPoint (point : Point K) (allowRebuild : Bool) (axis : Fin 3) {t : Tree K}
    (ht : Inv t) :
    Inv (addByPoint nth params point allowRebuild axis t) ∧
      live (addByPoint nth params point allowRebuild axis t) = {point} + live t ∧
      (t = .nil → Fresh (addByPoint nth params point allowRebuild axis t)) := by
  induction t using Tree.push_induction generalizing axis with
  | nil =>
    rw [addByPoint]
    obtain ⟨hinv, hlive⟩ := inv_newNode point (axis + 1) (l := .nil) (r := .nil) trivial trivial
    exact ⟨hinv, hlive.trans rfl, fun _ => fresh_newNode point (axis + 1)⟩
  | node d l r ihl ihr =>
    have hleft := inv_pushLeft ht
    have hright := inv_pushRight ht
    have hlives := live_eq_pushed ht
    rw [addByPoint]
    by_cases hlt : coord point d.divisionAxis < coord d.point d.divisionAxis
    · rw [if_pos hlt]
      obtain ⟨hl, hlive, hfresh⟩ := ihl d.divisionAxis hleft.1
      obtain ⟨hinv, hnode⟩ := inv_update (d := pushed d l r) hl hright.1 ht.2.2.pointDownsample
        (fun h => hfresh (by rw [pushed_left h, pushLeft_nil]))
        (fun h => fresh_of_nil (by rw [pushed_right h, pushRight_nil]))
      obtain ⟨hbalanced, hsame⟩ := inv_rebalance nth params allowRebuild hinv
      refine ⟨hbalanced, ?_, fun h => by cases h⟩
      refine hsame.trans (hnode.trans ?_)
      rw [hlive, hlives]
      change (if d.pointDeleted then 0 else {d.point} : Multiset (Point K)) + _ + _ = _
      abel
    · rw [if_neg hlt]
      obtain ⟨hr, hlive, hfresh⟩ := ihr d.divisionAxis hright.1
      obtain ⟨hinv, hnode⟩ := inv_update (d := pushed d l r) hleft.1 hr ht.2.2.pointDownsample
        (fun h => fresh_of_nil (by rw [pushed_left h, pushLeft_nil]))
        (fun h => hfresh (by rw [pushed_right h, pushRight_nil]))
      obtain ⟨hbalanced, hsame⟩ := inv_rebalance nth params allowRebuild hinv
      refine ⟨hbalanced, ?_, fun h => by cases h⟩
      refine hsame.trans (hnode.trans ?_)
      rw [hlive, hlives]
      change (if d.pointDeleted then 0 else {d.point} : Multiset (Point K)) + _ + _ = _
      abel

end Rebuilding
end IkdTree
end RtkLocalization
