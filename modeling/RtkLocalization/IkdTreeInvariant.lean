import RtkLocalization.IkdTree
import Mathlib.Data.Multiset.AddSub
import Mathlib.Data.Multiset.Filter
import Mathlib.Algebra.Order.Group.Multiset
import Mathlib.Algebra.BigOperators.Group.List.Basic

/-!
# What a tree holds

`live t` is the multiset of the points of `t` that no flag deletes, with the flags that are
not pushed down yet taken into account, and `Inv t` what every operation keeps.
-/

namespace RtkLocalization
namespace IkdTree

open LaserMapping (Point)

section Hulls
variable {K : Type} [LinearOrder K]

/-- `b` is the smallest box around `M`. -/
structure Hull (b : Box K) (M : Multiset (Point K)) : Prop where
  within : ∀ p ∈ M, ∀ i, b.vertexMin i ≤ coord p i ∧ coord p i ≤ b.vertexMax i
  least : ∀ i, ∃ p ∈ M, coord p i = b.vertexMin i
  greatest : ∀ i, ∃ p ∈ M, coord p i = b.vertexMax i

theorem hull_pointBox (p : Point K) : Hull (pointBox p) {p} where
  within q hq i := by
    rw [Multiset.mem_singleton.mp hq]
    exact ⟨le_rfl, le_rfl⟩
  least _ := ⟨p, Multiset.mem_singleton_self p, rfl⟩
  greatest _ := ⟨p, Multiset.mem_singleton_self p, rfl⟩

theorem Hull.join {b c : Box K} {M N : Multiset (Point K)} (hb : Hull b M) (hc : Hull c N) :
    Hull (b.join c) (M + N) where
  within p hp i := by
    rcases Multiset.mem_add.mp hp with hM | hN
    · exact ⟨(min_le_left _ _).trans (hb.within p hM i).1,
        (hb.within p hM i).2.trans (le_max_left _ _)⟩
    · exact ⟨(min_le_right _ _).trans (hc.within p hN i).1,
        (hc.within p hN i).2.trans (le_max_right _ _)⟩
  least i := by
    rcases min_choice (b.vertexMin i) (c.vertexMin i) with hmin | hmin
    · obtain ⟨p, hp, heq⟩ := hb.least i
      exact ⟨p, Multiset.mem_add.mpr (Or.inl hp), heq.trans hmin.symm⟩
    · obtain ⟨p, hp, heq⟩ := hc.least i
      exact ⟨p, Multiset.mem_add.mpr (Or.inr hp), heq.trans hmin.symm⟩
  greatest i := by
    rcases max_choice (b.vertexMax i) (c.vertexMax i) with hmax | hmax
    · obtain ⟨p, hp, heq⟩ := hb.greatest i
      exact ⟨p, Multiset.mem_add.mpr (Or.inl hp), heq.trans hmax.symm⟩
    · obtain ⟨p, hp, heq⟩ := hc.greatest i
      exact ⟨p, Multiset.mem_add.mpr (Or.inr hp), heq.trans hmax.symm⟩

theorem hull_foldl {b : Box K} {M : Multiset (Point K)} (hb : Hull b M)
    {parts : List (Box K × Multiset (Point K))} (hparts : ∀ x ∈ parts, Hull x.1 x.2) :
    Hull ((parts.map Prod.fst).foldl Box.join b) (M + (parts.map Prod.snd).sum) := by
  induction parts generalizing b M with
  | nil =>
    rw [List.map_nil, List.map_nil, List.sum_nil, add_zero]
    exact hb
  | cons x parts ih =>
    obtain ⟨hx, hrest⟩ := List.forall_mem_cons.mp hparts
    rw [List.map_cons, List.map_cons, List.foldl_cons, List.sum_cons, ← add_assoc]
    exact ih (hb.join hx) hrest

theorem hull_joinAll (point : Point K) {parts : List (Box K × Multiset (Point K))}
    (hparts : ∀ x ∈ parts, Hull x.1 x.2) (hne : parts ≠ []) :
    Hull (joinAll point (parts.map Prod.fst)) (parts.map Prod.snd).sum := by
  cases parts with
  | nil => exact absurd rfl hne
  | cons x parts =>
    obtain ⟨hx, hrest⟩ := List.forall_mem_cons.mp hparts
    exact hull_foldl hx hrest

end Hulls

section Invariant
variable {K : Type}

def live : Tree K → Multiset (Point K)
  | .nil => 0
  | .node d l r =>
    if d.treeDeleted then 0 else (if d.pointDeleted then 0 else {d.point}) + live l + live r

/-- A son that a flag without deletions changes nothing about: none, or a new leaf. -/
def Fresh : Tree K → Prop
  | .nil => True
  | .node d l r =>
    l = .nil ∧ r = .nil ∧ d.treeDeleted = false ∧ d.pointDeleted = false ∧
      d.treeDownsampleDeleted = false ∧ d.pointDownsampleDeleted = false ∧ d.downDelNum = 0

structure Sound [LinearOrder K] (d : Node K) (l r : Tree K) : Prop where
  treeSize : d.treeSize = l.count + r.count + 1
  valid : d.treeSize - d.invalidPointNum = (live (.node d l r)).card
  alive : d.treeDeleted = false → live (.node d l r) ≠ 0
  pointDead : d.treeDeleted = true → d.pointDeleted = true
  leftDead : d.treeDeleted = true → d.needPushDownToLeft = true ∨ live l = 0
  rightDead : d.treeDeleted = true → d.needPushDownToRight = true ∨ live r = 0
  leftFresh : d.needPushDownToLeft = true → d.treeDeleted = true ∨ Fresh l
  rightFresh : d.needPushDownToRight = true → d.treeDeleted = true ∨ Fresh r
  treeDownsample : d.treeDownsampleDeleted = true → d.treeDeleted = true
  pointDownsample : d.pointDownsampleDeleted = true → d.pointDeleted = true
  hull : d.treeDeleted = false → Hull d.nodeRange (live (.node d l r))

def Inv [LinearOrder K] : Tree K → Prop
  | .nil => True
  | .node d l r => Inv l ∧ Inv r ∧ Sound d l r

theorem live_of_deleted {d : Node K} (h : d.treeDeleted = true) (l r : Tree K) :
    live (.node d l r) = 0 := by
  rw [live, if_pos h]

theorem live_of_not_deleted {d : Node K} (h : d.treeDeleted = false) (l r : Tree K) :
    live (.node d l r) = (if d.pointDeleted then 0 else {d.point}) + live l + live r := by
  rw [live, h, if_neg Bool.false_ne_true]

/-! ### `Push_Down` -/

theorem pushLeft_nil (d : Node K) : pushLeft d .nil = .nil := by
  unfold pushLeft
  split_ifs <;> rfl

theorem pushRight_nil (d : Node K) : pushRight d .nil = .nil := by
  unfold pushRight
  split_ifs <;> rfl

theorem pushed_left {d : Node K} {l r : Tree K} (h : (pushed d l r).needPushDownToLeft = true) :
    l = .nil := by
  cases l with
  | nil => rfl
  | node => simp [pushed, Tree.root?] at h

theorem pushed_right {d : Node K} {l r : Tree K} (h : (pushed d l r).needPushDownToRight = true) :
    r = .nil := by
  cases r with
  | nil => rfl
  | node => simp [pushed, Tree.root?] at h

variable [LinearOrder K]

theorem inv_pushOnto_dead {father : Node K} (hfather : father.treeDeleted = true) {t : Tree K}
    (ht : Inv t) : Inv (pushOnto father t) ∧ live (pushOnto father t) = 0 := by
  cases t with
  | nil => exact ⟨trivial, rfl⟩
  | node d l r =>
    obtain ⟨hl, hr, hsound⟩ := ht
    have hdeleted : (father.treeDeleted || (d.treeDownsampleDeleted || father.treeDownsampleDeleted))
        = true := by rw [hfather, Bool.true_or]
    have hlive : live (pushOnto father (.node d l r)) = 0 := live_of_deleted hdeleted l r
    refine ⟨⟨hl, hr, ?_⟩, hlive⟩
    exact {
      treeSize := hsound.treeSize
      valid := by
        change d.treeSize - (if father.treeDeleted then d.treeSize else _) = ((live _).card : ℤ)
        rw [if_pos hfather, sub_self]
        exact (congrArg (fun M => ((Multiset.card M : ℕ) : ℤ)) hlive).symm
      alive := fun h => absurd (hdeleted.symm.trans h) (by decide)
      pointDead := fun _ => by
        change (_ || _) = true
        rw [hdeleted, Bool.true_or]
      leftDead := fun _ => Or.inl rfl
      rightDead := fun _ => Or.inl rfl
      leftFresh := fun _ => Or.inl hdeleted
      rightFresh := fun _ => Or.inl hdeleted
      treeDownsample := fun _ => hdeleted
      pointDownsample := fun _ => by
        change (_ || _) = true
        rw [hdeleted, Bool.true_or]
      hull := fun h => absurd (hdeleted.symm.trans h) (by decide) }

theorem inv_pushOnto_fresh {father : Node K} (hfather : father.treeDeleted = false)
    (hdownsample : father.treeDownsampleDeleted = false) {t : Tree K} (hfresh : Fresh t)
    (ht : Inv t) : Inv (pushOnto father t) ∧ live (pushOnto father t) = live t := by
  cases t with
  | nil => exact ⟨trivial, rfl⟩
  | node d l r =>
    obtain ⟨rfl, rfl, htree, hpoint, htreeDs, hpointDs, hdown⟩ := hfresh
    obtain ⟨-, -, hsound⟩ := ht
    have hlive : live (pushOnto father (.node d .nil .nil)) = live (.node d .nil .nil) := by
      simp [pushOnto, live, hfather, hdownsample, htree, hpoint, htreeDs, hpointDs]
    have hnot : (father.treeDeleted || (d.treeDownsampleDeleted || father.treeDownsampleDeleted))
        = false := by rw [hfather, hdownsample, htreeDs, Bool.or_self, Bool.or_self]
    refine ⟨⟨trivial, trivial, ?_⟩, hlive⟩
    exact {
      treeSize := hsound.treeSize
      valid := by
        calc d.treeSize - (if father.treeDeleted then d.treeSize else
              if father.treeDownsampleDeleted then d.treeSize else d.downDelNum) = 1 := by
              rw [hfather, hdownsample, if_neg Bool.false_ne_true, if_neg Bool.false_ne_true,
                hdown, sub_zero, hsound.treeSize]
              rfl
          _ = ((live (pushOnto father (.node d .nil .nil))).card : ℤ) := by
              rw [hlive, live_of_not_deleted htree, hpoint]
              rfl
      alive := fun _ => by
        have halive := hsound.alive htree
        rwa [← hlive] at halive
      pointDead := fun h => absurd (hnot.symm.trans h) (by decide)
      leftDead := fun _ => Or.inl rfl
      rightDead := fun _ => Or.inl rfl
      leftFresh := fun _ => Or.inr trivial
      rightFresh := fun _ => Or.inr trivial
      treeDownsample := fun h => by
        change (d.treeDownsampleDeleted || father.treeDownsampleDeleted) = true at h
        rw [htreeDs, hdownsample] at h
        exact absurd h Bool.false_ne_true
      pointDownsample := fun h => by
        change (d.pointDownsampleDeleted || father.treeDownsampleDeleted) = true at h
        rw [hpointDs, hdownsample] at h
        exact absurd h Bool.false_ne_true
      hull := fun _ => by
        have hhull := hsound.hull htree
        rwa [← hlive] at hhull }

theorem inv_pushLeft {d : Node K} {l r : Tree K} (h : Inv (.node d l r)) :
    Inv (pushLeft d l) ∧ live (pushLeft d l) = if d.treeDeleted then 0 else live l := by
  obtain ⟨hl, -, hsound⟩ := h
  unfold pushLeft
  split_ifs with hneed hdead hdead
  · exact inv_pushOnto_dead hdead hl
  · rw [Bool.not_eq_true] at hdead
    have hdownsample : d.treeDownsampleDeleted = false := by
      rw [← Bool.not_eq_true]
      intro hds
      exact absurd (hsound.treeDownsample hds) (by rw [hdead]; decide)
    have hfresh := (hsound.leftFresh hneed).resolve_left (by rw [hdead]; decide)
    exact inv_pushOnto_fresh hdead hdownsample hfresh hl
  · exact ⟨hl, (hsound.leftDead hdead).resolve_left hneed⟩
  · exact ⟨hl, rfl⟩

theorem inv_pushRight {d : Node K} {l r : Tree K} (h : Inv (.node d l r)) :
    Inv (pushRight d r) ∧ live (pushRight d r) = if d.treeDeleted then 0 else live r := by
  obtain ⟨-, hr, hsound⟩ := h
  unfold pushRight
  split_ifs with hneed hdead hdead
  · exact inv_pushOnto_dead hdead hr
  · rw [Bool.not_eq_true] at hdead
    have hdownsample : d.treeDownsampleDeleted = false := by
      rw [← Bool.not_eq_true]
      intro hds
      exact absurd (hsound.treeDownsample hds) (by rw [hdead]; decide)
    have hfresh := (hsound.rightFresh hneed).resolve_left (by rw [hdead]; decide)
    exact inv_pushOnto_fresh hdead hdownsample hfresh hr
  · exact ⟨hr, (hsound.rightDead hdead).resolve_left hneed⟩
  · exact ⟨hr, rfl⟩

/-- After `Push_Down` the points are those of the node and of its sons. -/
theorem live_eq_pushed {d : Node K} {l r : Tree K} (h : Inv (.node d l r)) :
    live (.node d l r)
      = (if d.pointDeleted then 0 else {d.point}) + live (pushLeft d l) + live (pushRight d r) := by
  rw [(inv_pushLeft h).2, (inv_pushRight h).2]
  cases hdead : d.treeDeleted with
  | false => exact live_of_not_deleted hdead l r
  | true =>
    rw [live_of_deleted hdead, if_pos rfl, if_pos rfl, if_pos (h.2.2.pointDead hdead)]
    rfl

/-- The node after `Push_Down`, over sons that hold the same points. -/
theorem inv_pushed {d : Node K} {l r l' r' : Tree K} (h : Inv (.node d l r)) (hl' : Inv l')
    (hr' : Inv r') (hlive : live l' = live (pushLeft d l)) (hrive : live r' = live (pushRight d r))
    (hcount : l'.count = l.count) (hcount' : r'.count = r.count) :
    Inv (.node (pushed d l r) l' r') ∧ live (.node (pushed d l r) l' r') = live (.node d l r) := by
  have hsound := h.2.2
  have hlives : live (.node (pushed d l r) l' r') = live (.node d l r) := by
    cases hdead : d.treeDeleted with
    | true =>
      exact (live_of_deleted (d := pushed d l r) hdead l' r').trans (live_of_deleted hdead l r).symm
    | false =>
      rw [live_eq_pushed h, live_of_not_deleted (d := pushed d l r) hdead, hlive, hrive]
      rfl
  have hnil {t t' : Tree K} (ht : t = .nil) (hc : t'.count = t.count) : t' = .nil := by
    cases t' with
    | nil => rfl
    | node d l r =>
      rw [ht, Tree.count, Tree.count] at hc
      omega
  have hdeadLive : d.treeDeleted = true → live l' = 0 ∧ live r' = 0 := by
    intro hdead
    rw [hlive, hrive, (inv_pushLeft h).2, (inv_pushRight h).2, if_pos hdead, if_pos hdead]
    exact ⟨rfl, rfl⟩
  refine ⟨⟨hl', hr', ?_⟩, hlives⟩
  exact {
    treeSize := by
      rw [hcount, hcount']
      exact hsound.treeSize
    valid := by
      rw [hlives]
      exact hsound.valid
    alive := fun hdead => by
      rw [hlives]
      exact hsound.alive hdead
    pointDead := hsound.pointDead
    leftDead := fun hdead => Or.inr (hdeadLive hdead).1
    rightDead := fun hdead => Or.inr (hdeadLive hdead).2
    leftFresh := fun hneed => Or.inr (by rw [hnil (pushed_left hneed) hcount]; trivial)
    rightFresh := fun hneed => Or.inr (by rw [hnil (pushed_right hneed) hcount']; trivial)
    treeDownsample := hsound.treeDownsample
    pointDownsample := hsound.pointDownsample
    hull := fun hdead => by
      rw [hlives]
      exact hsound.hull hdead }

/-! ### `Update` -/

/-- The box and the points that a son gives its father. -/
def part : Tree K → List (Box K × Multiset (Point K))
  | .nil => []
  | .node d l r => if d.treeDeleted then [] else [(d.nodeRange, live (.node d l r))]

omit [LinearOrder K] in
theorem sum_part (t : Tree K) : ((part t).map Prod.snd).sum = live t := by
  cases t with
  | nil => rfl
  | node d l r =>
    simp only [part]
    split_ifs with hdead
    · exact (live_of_deleted hdead l r).symm
    · exact List.sum_singleton

omit [LinearOrder K] in
theorem boxes_part (t : Tree K) :
    (part t).map Prod.fst = (t.root?.toList.filter (!·.treeDeleted)).map (·.nodeRange) := by
  cases t with
  | nil => rfl
  | node d l r =>
    unfold part
    cases hdead : d.treeDeleted <;> simp [Tree.root?, hdead]

theorem hull_part {t : Tree K} (ht : Inv t) : ∀ x ∈ part t, Hull x.1 x.2 := by
  cases t with
  | nil => exact fun x hx => absurd hx List.not_mem_nil
  | node d l r =>
    simp only [part]
    split_ifs with hdead
    · exact fun x hx => absurd hx List.not_mem_nil
    · exact List.forall_mem_singleton.mpr (ht.2.2.hull (Bool.not_eq_true _ ▸ hdead))

omit [LinearOrder K] in
theorem live_eq_zero_of_all {t : Tree K} (h : t.root?.toList.all (·.treeDeleted) = true) :
    live t = 0 := by
  cases t with
  | nil => rfl
  | node d l r => exact live_of_deleted (by simpa [Tree.root?] using h) l r

theorem all_of_live_eq_zero {t : Tree K} (ht : Inv t) (h : live t = 0) :
    t.root?.toList.all (·.treeDeleted) = true := by
  cases t with
  | nil => rfl
  | node d l r =>
    cases hdead : d.treeDeleted with
    | true => simp [Tree.root?, hdead]
    | false => exact absurd h (ht.2.2.alive hdead)

theorem sum_treeSize {t : Tree K} (ht : Inv t) :
    (t.root?.toList.map (·.treeSize)).sum = t.count := by
  cases t with
  | nil => rfl
  | node d l r =>
    have hsize := ht.2.2.treeSize
    simp [Tree.root?, Tree.count, hsize]

theorem sum_invalidPointNum {t : Tree K} (ht : Inv t) :
    (t.root?.toList.map (·.invalidPointNum)).sum = t.count - (live t).card := by
  cases t with
  | nil => rfl
  | node d l r =>
    have hsize := ht.2.2.treeSize
    have hvalid := ht.2.2.valid
    rw [Tree.root?, Option.toList_some, List.map_singleton, List.sum_singleton, Tree.count]
    push_cast
    omega

theorem all_treeDownsampleDeleted {t : Tree K} (ht : Inv t)
    (h : t.root?.toList.all (·.treeDownsampleDeleted) = true) :
    t.root?.toList.all (·.treeDeleted) = true := by
  cases t with
  | nil => rfl
  | node d l r => simpa [Tree.root?] using ht.2.2.treeDownsample (by simpa [Tree.root?] using h)

omit [LinearOrder K] in
theorem rangeBoxes_of_alive {point : Point K} {pointDeleted : Bool}
    {sons : List (Node K)} (h : (sons.all (·.treeDeleted) && pointDeleted) = false) :
    rangeBoxes point pointDeleted sons
      = (sons.filter (!·.treeDeleted)).map (·.nodeRange)
        ++ if pointDeleted then [] else [pointBox point] := by
  unfold rangeBoxes
  dsimp only
  rw [h, Bool.false_or]
  split_ifs with hall hpoint hpoint
  · simp [hpoint] at hall
  · have hfilter : sons.filter (!·.treeDeleted) = sons :=
      List.filter_eq_self.mpr (List.all_eq_true.mp (Bool.and_eq_true_iff.mp hall).1)
    rw [hfilter]
  · rfl
  · rfl

/-- What `Update` makes of a node whose sons are in order. -/
theorem inv_update {d : Node K} {l r : Tree K} (hl : Inv l) (hr : Inv r)
    (hdownsample : d.pointDownsampleDeleted = true → d.pointDeleted = true)
    (hleft : d.needPushDownToLeft = true → Fresh l)
    (hright : d.needPushDownToRight = true → Fresh r) :
    Inv (.node (update d l r) l r) ∧
      live (.node (update d l r) l r)
        = (if d.pointDeleted then 0 else {d.point}) + live l + live r := by
  set sons := l.root?.toList ++ r.root?.toList with hsons
  have hdead : (update d l r).treeDeleted = (sons.all (·.treeDeleted) && d.pointDeleted) := rfl
  have hparts : (sons.all (·.treeDeleted) && d.pointDeleted) = true →
      live l = 0 ∧ live r = 0 ∧ d.pointDeleted = true := by
    intro h
    rw [hsons, List.all_append, Bool.and_eq_true, Bool.and_eq_true] at h
    exact ⟨live_eq_zero_of_all h.1.1, live_eq_zero_of_all h.1.2, h.2⟩
  have hlive : live (.node (update d l r) l r)
      = (if d.pointDeleted then 0 else {d.point}) + live l + live r := by
    cases hd : (update d l r).treeDeleted with
    | false => exact live_of_not_deleted hd l r
    | true =>
      obtain ⟨hlz, hrz, hpoint⟩ := hparts (hdead.symm.trans hd)
      rw [live_of_deleted hd, hlz, hrz, if_pos hpoint]
      rfl
  have halive : (update d l r).treeDeleted = false → live (.node (update d l r) l r) ≠ 0 := by
    intro hd hzero
    rw [hlive] at hzero
    have hcard := congrArg Multiset.card hzero
    rw [Multiset.card_add, Multiset.card_add, Multiset.card_zero] at hcard
    have hpoint : (if d.pointDeleted then 0 else {d.point} : Multiset (Point K)) = 0 :=
      Multiset.card_eq_zero.mp (by omega)
    have hlz : live l = 0 := Multiset.card_eq_zero.mp (by omega)
    have hrz : live r = 0 := Multiset.card_eq_zero.mp (by omega)
    have hpd : d.pointDeleted = true := by
      by_contra hnot
      rw [if_neg hnot] at hpoint
      exact Multiset.singleton_ne_zero _ hpoint
    rw [hdead, hsons, List.all_append, all_of_live_eq_zero hl hlz, all_of_live_eq_zero hr hrz,
      hpd] at hd
    exact absurd hd (by decide)
  refine ⟨⟨hl, hr, ?_⟩, hlive⟩
  exact {
    treeSize := by
      change (sons.map (·.treeSize)).sum + 1 = _
      rw [hsons, List.map_append, List.sum_append, sum_treeSize hl, sum_treeSize hr]
    valid := by
      rw [hlive]
      change (sons.map (·.treeSize)).sum + 1
        - ((sons.map (·.invalidPointNum)).sum + if d.pointDeleted then 1 else 0) = _
      rw [hsons, List.map_append, List.map_append, List.sum_append, List.sum_append,
        sum_treeSize hl, sum_treeSize hr, sum_invalidPointNum hl, sum_invalidPointNum hr,
        Multiset.card_add, Multiset.card_add]
      push_cast
      split_ifs
      · rw [Multiset.card_zero]
        omega
      · rw [Multiset.card_singleton]
        omega
    alive := halive
    pointDead := fun h => (hparts (hdead.symm.trans h)).2.2
    leftDead := fun h => Or.inr (hparts (hdead.symm.trans h)).1
    rightDead := fun h => Or.inr (hparts (hdead.symm.trans h)).2.1
    leftFresh := fun h => Or.inr (hleft h)
    rightFresh := fun h => Or.inr (hright h)
    treeDownsample := fun h => by
      have hall : (sons.all (·.treeDownsampleDeleted) && d.pointDownsampleDeleted) = true := h
      rw [hsons, List.all_append, Bool.and_eq_true, Bool.and_eq_true] at hall
      rw [hdead, hsons, List.all_append, all_treeDownsampleDeleted hl hall.1.1,
        all_treeDownsampleDeleted hr hall.1.2, hdownsample hall.2]
      rfl
    pointDownsample := hdownsample
    hull := fun hd => by
      have hboxes : (update d l r).nodeRange
          = joinAll d.point (rangeBoxes d.point d.pointDeleted sons) := rfl
      set own : List (Box K × Multiset (Point K)) :=
        if d.pointDeleted then [] else [(pointBox d.point, {d.point})] with hown
      have hfst : rangeBoxes d.point d.pointDeleted sons
          = (part l ++ part r ++ own).map Prod.fst := by
        rw [rangeBoxes_of_alive (hdead.symm.trans hd), hsons, List.filter_append, List.map_append,
          List.map_append, List.map_append, boxes_part, boxes_part, hown]
        split_ifs <;> rfl
      have hsnd : ((part l ++ part r ++ own).map Prod.snd).sum
          = live (.node (update d l r) l r) := by
        rw [hlive, List.map_append, List.map_append, List.sum_append, List.sum_append, sum_part,
          sum_part, add_comm, ← add_assoc, hown]
        split_ifs
        · rfl
        · rw [List.map_singleton, List.sum_singleton]
      rw [hboxes, hfst, ← hsnd]
      refine hull_joinAll d.point (fun x hx => ?_) ?_
      · rcases List.mem_append.mp hx with hx | hx
        · rcases List.mem_append.mp hx with hx | hx
          · exact hull_part hl x hx
          · exact hull_part hr x hx
        · rw [hown] at hx
          split_ifs at hx
          · exact absurd hx List.not_mem_nil
          · rw [List.mem_singleton.mp hx]
            exact hull_pointBox d.point
      · intro hnil
        rw [hnil] at hsnd
        exact halive hd hsnd.symm }

end Invariant
end IkdTree
end RtkLocalization
