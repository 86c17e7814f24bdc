import RtkLocalization.LaserMapping
import RtkLocalization.Lib.Selection

/-!
# `ikd_Tree.cpp`

The incremental k-d tree that holds the map. Deletions are lazy: a node keeps flags for
itself and its subtree, which `Push_Down` hands on to its sons when they are next visited.
The operations are those of one thread, with `Rebuild_Ptr` null: a rebuild of a subtree of
`Multi_Thread_Rebuild_Point_Num` points or more is left to the other thread.
-/

namespace RtkLocalization
namespace IkdTree

open LaserMapping (Point)

def coord {K : Type} (p : Point K) : Fin 3 → K
  | 0 => p.x
  | 1 => p.y
  | 2 => p.z

structure Box (K : Type) where
  vertexMin : Fin 3 → K
  vertexMax : Fin 3 → K

/-- `KD_TREE_NODE` without its sons. -/
structure Node (K : Type) where
  point : Point K
  divisionAxis : Fin 3
  treeSize : ℤ
  invalidPointNum : ℤ
  downDelNum : ℤ
  pointDeleted : Bool
  treeDeleted : Bool
  pointDownsampleDeleted : Bool
  treeDownsampleDeleted : Bool
  needPushDownToLeft : Bool
  needPushDownToRight : Bool
  nodeRange : Box K

inductive Tree (K : Type) where
  | nil
  | node (root : Node K) (left right : Tree K)

structure Params (K : Type) where
  deleteCriterionParam : K
  balanceCriterionParam : K
  downsampleSize : K

def Tree.count {K : Type} : Tree K → ℕ
  | .nil => 0
  | .node _ l r => l.count + r.count + 1

def Tree.root? {K : Type} : Tree K → Option (Node K)
  | .nil => none
  | .node d _ _ => some d

section PushDown
variable {K : Type}

/-- What `Push_Down` makes of a son. -/
def pushOnto (father : Node K) : Tree K → Tree K
  | .nil => .nil
  | .node d l r =>
    let treeDownsampleDeleted := d.treeDownsampleDeleted || father.treeDownsampleDeleted
    let pointDownsampleDeleted := d.pointDownsampleDeleted || father.treeDownsampleDeleted
    let treeDeleted := father.treeDeleted || treeDownsampleDeleted
    let downDelNum := if father.treeDownsampleDeleted then d.treeSize else d.downDelNum
    .node
      { d with
        treeDownsampleDeleted := treeDownsampleDeleted
        pointDownsampleDeleted := pointDownsampleDeleted
        treeDeleted := treeDeleted
        pointDeleted := treeDeleted || pointDownsampleDeleted
        downDelNum := downDelNum
        invalidPointNum := if father.treeDeleted then d.treeSize else downDelNum
        needPushDownToLeft := true
        needPushDownToRight := true } l r

def pushLeft (d : Node K) (l : Tree K) : Tree K :=
  if d.needPushDownToLeft then pushOnto d l else l

def pushRight (d : Node K) (r : Tree K) : Tree K :=
  if d.needPushDownToRight then pushOnto d r else r

/-- The node after it; without a son the flag stays. -/
def pushed (d : Node K) (l r : Tree K) : Node K :=
  { d with
    needPushDownToLeft := d.needPushDownToLeft && l.root?.isNone
    needPushDownToRight := d.needPushDownToRight && r.root?.isNone }

theorem count_pushOnto (father : Node K) (t : Tree K) : (pushOnto father t).count = t.count := by
  cases t <;> rfl

theorem count_pushLeft (d : Node K) (l : Tree K) : (pushLeft d l).count = l.count := by
  unfold pushLeft
  split_ifs
  · exact count_pushOnto d l
  · rfl

theorem count_pushRight (d : Node K) (r : Tree K) : (pushRight d r).count = r.count := by
  unfold pushRight
  split_ifs
  · exact count_pushOnto d r
  · rfl

/-- Induction along the visits: the sons as `Push_Down` leaves them. -/
@[elab_as_elim]
theorem Tree.push_induction {motive : Tree K → Prop} (nil : motive .nil)
    (node : ∀ d l r, motive (pushLeft d l) → motive (pushRight d r) → motive (.node d l r))
    (t : Tree K) : motive t :=
  match t with
  | .nil => nil
  | .node d l r =>
    node d l r (Tree.push_induction nil node (pushLeft d l))
      (Tree.push_induction nil node (pushRight d r))
termination_by t.count
decreasing_by
  · rw [count_pushLeft, Tree.count]
    omega
  · rw [count_pushRight, Tree.count]
    omega

def flatten : Tree K → Tree K × List (Point K)
  | .nil => (.nil, [])
  | .node d l r =>
    let (l', fromLeft) := flatten (pushLeft d l)
    let (r', fromRight) := flatten (pushRight d r)
    (.node (pushed d l r) l' r',
      (if d.pointDeleted then [] else [d.point]) ++ fromLeft ++ fromRight)
termination_by t => t.count
decreasing_by
  · rw [count_pushLeft, Tree.count]
    omega
  · rw [count_pushRight, Tree.count]
    omega

end PushDown

section Program
variable {K : Type} [Field K] [LinearOrder K]

/-! ### `Update` -/

def Box.join (b c : Box K) : Box K where
  vertexMin i := min (b.vertexMin i) (c.vertexMin i)
  vertexMax i := max (b.vertexMax i) (c.vertexMax i)

def pointBox (p : Point K) : Box K := ⟨coord p, coord p⟩

/-- The boxes that `Update` joins: those with a point left, or all where none is. -/
def rangeBoxes (point : Point K) (pointDeleted : Bool) (sons : List (Node K)) : List (Box K) :=
  let treeDeleted := sons.all (·.treeDeleted) && pointDeleted
  if treeDeleted || (sons.all (!·.treeDeleted) && !pointDeleted) then
    sons.map (·.nodeRange) ++ [pointBox point]
  else
    (sons.filter (!·.treeDeleted)).map (·.nodeRange) ++
      if pointDeleted then [] else [pointBox point]

def joinAll (point : Point K) : List (Box K) → Box K
  | [] => pointBox point
  | b :: bs => bs.foldl Box.join b

def update (d : Node K) (l r : Tree K) : Node K :=
  let sons := l.root?.toList ++ r.root?.toList
  { d with
    treeSize := (sons.map (·.treeSize)).sum + 1
    invalidPointNum := (sons.map (·.invalidPointNum)).sum + if d.pointDeleted then 1 else 0
    downDelNum := (sons.map (·.downDelNum)).sum + if d.pointDownsampleDeleted then 1 else 0
    treeDownsampleDeleted := sons.all (·.treeDownsampleDeleted) && d.pointDownsampleDeleted
    treeDeleted := sons.all (·.treeDeleted) && d.pointDeleted
    nodeRange := joinAll d.point (rangeBoxes d.point d.pointDeleted sons) }

/-- `InitTreeNode`, the point and the axis, and `Update`. -/
def newNode (point : Point K) (axis : Fin 3) (l r : Tree K) : Tree K :=
  .node (update ⟨point, axis, 0, 0, 0, false, false, false, false, false, false, pointBox point⟩ l r)
    l r

/-! ### `BuildTree` and `Rebuild` -/

/-- `std::nth_element` by a coordinate. -/
structure NthElement (K : Type) [LinearOrder K] where
  run : (Point K → K) → ℕ → List (Point K) → List (Point K)
  perm : ∀ f n xs, (run f n xs).Perm xs
  before : ∀ f n xs, ∀ a ∈ (run f n xs).take n, ∀ b ∈ ((run f n xs).drop n).head?, f a ≤ f b
  after : ∀ f n xs, ∀ a ∈ (run f n xs).drop (n + 1), ∀ b ∈ ((run f n xs).drop n).head?, f b ≤ f a

def dimRange (first : Point K) (rest : List (Point K)) (i : Fin 3) : K :=
  rest.foldl (fun m p => max m (coord p i)) (coord first i)
    - rest.foldl (fun m p => min m (coord p i)) (coord first i)

/-- The longest dimension, the first of them. -/
def longestAxis (first : Point K) (rest : List (Point K)) : Fin 3 :=
  let axis := if dimRange first rest 0 < dimRange first rest 1 then 1 else 0
  if dimRange first rest axis < dimRange first rest 2 then 2 else axis

omit [Field K] in
theorem NthElement.length_run (nth : NthElement K) (f : Point K → K) (n : ℕ) (xs : List (Point K)) :
    (nth.run f n xs).length = xs.length := (nth.perm f n xs).length_eq

def buildTree (nth : NthElement K) (xs : List (Point K)) : Tree K :=
  match xs with
  | [] => .nil
  | first :: rest =>
    let axis := longestAxis first rest
    let mid := rest.length / 2
    let sorted := nth.run (coord · axis) mid (first :: rest)
    match _hsorted : sorted.drop mid with
    | [] => .nil
    | point :: upper =>
      newNode point axis (buildTree nth (sorted.take mid)) (buildTree nth upper)
termination_by xs.length
decreasing_by
  · have hlength : sorted.length = (first :: rest).length := nth.length_run _ _ _
    simp only [List.length_take, List.length_cons] at hlength ⊢
    omega
  · have hlength : sorted.length = (first :: rest).length := nth.length_run _ _ _
    have hupper := congrArg List.length _hsorted
    simp only [List.length_drop, List.length_cons] at hlength hupper ⊢
    omega

def minimalUnbalancedTreeSize : ℤ := 10

def multiThreadRebuildPointNum : ℤ := 1500

def Tree.treeSize (t : Tree K) : ℤ := (t.root?.map (·.treeSize)).getD 0

def criterionCheck (params : Params K) : Tree K → Bool
  | .nil => false
  | .node d l r =>
    if d.treeSize ≤ minimalUnbalancedTreeSize then false
    else
      let son := if l.root?.isSome then l else r
      let deleteEvaluation : K := d.invalidPointNum / d.treeSize
      let balanceEvaluation : K := son.treeSize / ((d.treeSize - 1 : ℤ) : K)
      if params.deleteCriterionParam < deleteEvaluation then true
      else
        decide (params.balanceCriterionParam < balanceEvaluation) ||
          decide (balanceEvaluation < 1 - params.balanceCriterionParam)

def rebuild (nth : NthElement K) (t : Tree K) : Tree K :=
  if multiThreadRebuildPointNum ≤ t.treeSize then t else buildTree nth (flatten t).2

/-- The end of an operation at a node. -/
def rebalance (nth : NthElement K) (params : Params K) (allowRebuild : Bool) (t : Tree K) :
    Tree K :=
  if allowRebuild && criterionCheck params t then rebuild nth t else t

/-! ### Boxes -/

def inBox (box : Box K) (p : Point K) : Bool :=
  decide (∀ i, box.vertexMin i ≤ coord p i ∧ coord p i < box.vertexMax i)

def misses (box range : Box K) : Bool :=
  decide (∃ i, box.vertexMax i ≤ range.vertexMin i ∨ range.vertexMax i < box.vertexMin i)

def covers (box range : Box K) : Bool :=
  decide (∀ i, box.vertexMin i ≤ range.vertexMin i ∧ range.vertexMax i < box.vertexMax i)

/-! ### Operations -/

/-- The root when all of its tree is deleted. -/
def allDeleted (isDownsample : Bool) (d : Node K) : Node K :=
  { d with
    treeDeleted := true
    pointDeleted := true
    needPushDownToLeft := true
    needPushDownToRight := true
    invalidPointNum := d.treeSize
    treeDownsampleDeleted := d.treeDownsampleDeleted || isDownsample
    pointDownsampleDeleted := d.pointDownsampleDeleted || isDownsample
    downDelNum := if isDownsample then d.treeSize else d.downDelNum }

def deletePoint (isDownsample : Bool) (d : Node K) : Node K :=
  { d with
    pointDeleted := true
    pointDownsampleDeleted := d.pointDownsampleDeleted || isDownsample }

/-- `Delete_by_range`, with the number of points that it deletes. -/
def deleteByRange (nth : NthElement K) (params : Params K) (box : Box K)
    (allowRebuild isDownsample : Bool) : Tree K → Tree K × ℤ
  | .nil => (.nil, 0)
  | .node d l r =>
    if d.treeDeleted then (.node d l r, 0)
    else if misses box d.nodeRange then (.node (pushed d l r) (pushLeft d l) (pushRight d r), 0)
    else if covers box d.nodeRange then
      (.node (allDeleted isDownsample (pushed d l r)) (pushLeft d l) (pushRight d r),
        d.treeSize - d.invalidPointNum)
    else
      let hit := !d.pointDeleted && inBox box d.point
      let d' := if hit then deletePoint isDownsample (pushed d l r) else pushed d l r
      let (l', fromLeft) := deleteByRange nth params box allowRebuild isDownsample (pushLeft d l)
      let (r', fromRight) := deleteByRange nth params box allowRebuild isDownsample (pushRight d r)
      (rebalance nth params allowRebuild (.node (update d' l' r') l' r'),
        (if hit then 1 else 0) + fromLeft + fromRight)
termination_by t => t.count
decreasing_by
  · rw [count_pushLeft, Tree.count]
    omega
  · rw [count_pushRight, Tree.count]
    omega

def addByPoint (nth : NthElement K) (params : Params K) (point : Point K) (allowRebuild : Bool) :
    Fin 3 → Tree K → Tree K
  | fatherAxis, .nil => newNode point (fatherAxis + 1) .nil .nil
  | _, .node d l r =>
    let d' := pushed d l r
    let (l', r') :=
      if coord point d.divisionAxis < coord d.point d.divisionAxis then
        (addByPoint nth params point allowRebuild d.divisionAxis (pushLeft d l), pushRight d r)
      else
        (pushLeft d l, addByPoint nth params point allowRebuild d.divisionAxis (pushRight d r))
    rebalance nth params allowRebuild (.node (update d' l' r') l' r')
termination_by _ t => t.count
decreasing_by
  · rw [count_pushLeft, Tree.count]
    omega
  · rw [count_pushRight, Tree.count]
    omega

def searchByRange (box : Box K) : Tree K → Tree K × List (Point K)
  | .nil => (.nil, [])
  | .node d l r =>
    let d' := pushed d l r
    if misses box d.nodeRange then (.node d' (pushLeft d l) (pushRight d r), [])
    else if covers box d.nodeRange then flatten (.node d' (pushLeft d l) (pushRight d r))
    else
      let (l', fromLeft) := searchByRange box (pushLeft d l)
      let (r', fromRight) := searchByRange box (pushRight d r)
      (.node d' l' r',
        (if inBox box d.point && !d.pointDeleted then [d.point] else []) ++ fromLeft ++ fromRight)
termination_by t => t.count
decreasing_by
  · rw [count_pushLeft, Tree.count]
    omega
  · rw [count_pushRight, Tree.count]
    omega

/-! ### The interface -/

def calcDist (a b : Fin 3 → K) : K :=
  (a 0 - b 0) * (a 0 - b 0) + (a 1 - b 1) * (a 1 - b 1) + (a 2 - b 2) * (a 2 - b 2)

def beyond (lo hi x : K) : K :=
  (if x < lo then (x - lo) * (x - lo) else 0) + if hi < x then (x - hi) * (x - hi) else 0

def calcBoxDist (range : Box K) (point : Point K) : K :=
  beyond (range.vertexMin 0) (range.vertexMax 0) (coord point 0)
    + beyond (range.vertexMin 1) (range.vertexMax 1) (coord point 1)
    + beyond (range.vertexMin 2) (range.vertexMax 2) (coord point 2)

def samePoint (a b : Point K) : Bool :=
  decide (∀ i, |coord a i - coord b i| < 1e-6)

/-- `Box_of_Point`: the cell of the grid of `downsample_size`. -/
def boxOfPoint [FloorRing K] (downsampleSize : K) (p : Point K) : Box K where
  vertexMin i := ⌊coord p i / downsampleSize⌋ * downsampleSize
  vertexMax i := ⌊coord p i / downsampleSize⌋ * downsampleSize + downsampleSize

def midPoint (box : Box K) (i : Fin 3) : K :=
  box.vertexMin i + (box.vertexMax i - box.vertexMin i) / 2.0

/-- `min_dist` and `downsample_result`, the new point first. -/
def downsampleResult (mid : Fin 3 → K) (new : Point K) (storage : List (Point K)) : Point K :=
  (storage.foldl (Selection.keepFirst fun p => calcDist (coord p) mid)
    (calcDist (coord new) mid, new)).2

/-- `Add_by_point` at the root, whose axis it reads first. -/
def addAtRoot (nth : NthElement K) (params : Params K) (point : Point K) (t : Tree K) :
    Option (Tree K) :=
  t.root?.map fun d => addByPoint nth params point true d.divisionAxis t

def addDownsampled [FloorRing K] (nth : NthElement K) (params : Params K) (point : Point K)
    (t : Tree K) : Option (Tree K) :=
  let box := boxOfPoint params.downsampleSize point
  let (t', storage) := searchByRange box t
  let result := downsampleResult (midPoint box) point storage
  if 1 < storage.length || samePoint point result then
    addAtRoot nth params result
      (if 0 < storage.length then (deleteByRange nth params box true true t').1 else t')
  else some t'

def addPoints [FloorRing K] (nth : NthElement K) (params : Params K) (downsampleOn : Bool) :
    List (Point K) → Tree K → Option (Tree K)
  | [], t => some t
  | p :: ps, t =>
    (if downsampleOn then addDownsampled nth params p t else addAtRoot nth params p t).bind
      (addPoints nth params downsampleOn ps)

/-- The points that go are counted. -/
def deletePointBoxes (nth : NthElement K) (params : Params K) : List (Box K) → Tree K → Tree K × ℤ
  | [], t => (t, 0)
  | box :: boxes, t =>
    let (t', count) := deleteByRange nth params box true false t
    let (t'', counts) := deletePointBoxes nth params boxes t'
    (t'', count + counts)

def validnum (t : Tree K) : ℤ := (t.root?.map fun d => d.treeSize - d.invalidPointNum).getD 0

end Program
end IkdTree
end RtkLocalization
