import RtkLocalization.IkdTreeRuns

/-!
# `laserMapping.cpp`: the local map

`lasermap_fov_segment` moves a cube along with the sensor and has the points that leave it
deleted from the tree; `map_incremental` adds the points of a scan.
-/

namespace RtkLocalization
namespace LocalMap

open LaserMapping (Point)
open IkdTree

structure Config (K : Type) where
  cubeLen : K
  detRange : K
  filterSizeMapMin : K

section Cube
variable {K : Type} [Field K] [LinearOrder K]

/-- `MOV_THRESHOLD * DET_RANGE`. -/
def threshold (cfg : Config K) : K := 1.5 * cfg.detRange

def movDist (cfg : Config K) : K :=
  max ((cfg.cubeLen - 2.0 * threshold cfg) * 0.5 * 0.9) (cfg.detRange * (1.5 - 1))

inductive Move where
  | stay
  | down
  | up
  deriving DecidableEq

/-- Where an axis has to move to: the lower edge is looked at first. -/
def axisMove (cfg : Config K) (cube : Box K) (posLid : Fin 3 → K) (i : Fin 3) : Move :=
  if |posLid i - cube.vertexMin i| ≤ threshold cfg then .down
  else if |posLid i - cube.vertexMax i| ≤ threshold cfg then .up
  else .stay

def shift (cfg : Config K) : Move → K
  | .stay => 0
  | .down => -movDist cfg
  | .up => movDist cfg

/-- `New_LocalMap_Points`. -/
def moved (cfg : Config K) (cube : Box K) (posLid : Fin 3 → K) : Box K where
  vertexMin i := cube.vertexMin i + shift cfg (axisMove cfg cube posLid i)
  vertexMax i := cube.vertexMax i + shift cfg (axisMove cfg cube posLid i)

/-- `tmp_boxpoints`. -/
def leftBox (cfg : Config K) (cube : Box K) (posLid : Fin 3 → K) (i : Fin 3) : Option (Box K) :=
  match axisMove cfg cube posLid i with
  | .stay => none
  | .down =>
    some { cube with
      vertexMin := Function.update cube.vertexMin i (cube.vertexMax i - movDist cfg) }
  | .up =>
    some { cube with
      vertexMax := Function.update cube.vertexMax i (cube.vertexMin i + movDist cfg) }

/-- The cube after a call, and `cub_needrm`. -/
def lasermapFovSegment (cfg : Config K) (localMapPoints : Option (Box K)) (posLid : Fin 3 → K) :
    Box K × List (Box K) :=
  match localMapPoints with
  | none => (⟨fun i => posLid i - cfg.cubeLen / 2.0, fun i => posLid i + cfg.cubeLen / 2.0⟩, [])
  | some cube => (moved cfg cube posLid, (List.finRange 3).filterMap (leftBox cfg cube posLid))

/-- The cube after the positions of a run. -/
def cubeAfter (cfg : Config K) (positions : List (Fin 3 → K)) : Option (Box K) :=
  positions.foldl (fun cube posLid => some (lasermapFovSegment cfg cube posLid).1) none

end Cube

section Geometry
variable {K : Type} [Field K] [LinearOrder K] [IsStrictOrderedRing K] {cfg : Config K}

def Sided (cfg : Config K) (cube : Box K) : Prop :=
  ∀ i, cube.vertexMax i = cube.vertexMin i + cfg.cubeLen

/-- More than `MOV_THRESHOLD * DET_RANGE` from every face. -/
def Inside (cfg : Config K) (cube : Box K) (posLid : Fin 3 → K) : Prop :=
  ∀ i, threshold cfg < posLid i - cube.vertexMin i ∧ threshold cfg < cube.vertexMax i - posLid i

/-- Two calls between which the sensor does not move further than the cube can. -/
def Near (cfg : Config K) (posLid posLid' : Fin 3 → K) : Prop :=
  ∀ i, |posLid' i - posLid i| ≤ movDist cfg ∧ |posLid' i - posLid i| ≤ 2.0 * threshold cfg

omit [IsStrictOrderedRing K] in
theorem sided_moved {cube : Box K} (h : Sided cfg cube) (posLid : Fin 3 → K) :
    Sided cfg (moved cfg cube posLid) := by
  intro i
  simp only [moved, h i]
  ring

theorem sided_initial (posLid : Fin 3 → K) :
    Sided cfg (lasermapFovSegment cfg none posLid).1 := by
  intro i
  simp only [lasermapFovSegment]
  norm_num
  ring

omit [IsStrictOrderedRing K] in
theorem inBox_moved_iff {cube : Box K} {posLid : Fin 3 → K} {p : Point K} :
    inBox (moved cfg cube posLid) p = true ↔
      ∀ i, cube.vertexMin i + shift cfg (axisMove cfg cube posLid i) ≤ coord p i ∧
        coord p i < cube.vertexMax i + shift cfg (axisMove cfg cube posLid i) :=
  inBox_iff

/-- The slice that an axis gives up. -/
theorem inBox_leftBox_iff (posLid : Fin 3 → K) (i : Fin 3) (p : Point K) {cube : Box K}
    (hcube : Sided cfg cube) (hmov : 0 ≤ movDist cfg)
    (hlen : movDist cfg ≤ cfg.cubeLen) :
    (∃ box ∈ leftBox cfg cube posLid i, inBox box p = true) ↔
      inBox cube p = true ∧
        ¬ (cube.vertexMin i + shift cfg (axisMove cfg cube posLid i) ≤ coord p i ∧
          coord p i < cube.vertexMax i + shift cfg (axisMove cfg cube posLid i)) := by
  have hside := hcube i
  unfold leftBox
  cases axisMove cfg cube posLid i with
  | stay =>
    simp only [shift, add_zero]
    constructor
    · rintro ⟨box, hbox, -⟩
      cases hbox
    · rintro ⟨hin, hout⟩
      exact absurd (inBox_iff.mp hin i) hout
  | down =>
    simp only [shift, Option.mem_some_iff, exists_eq_left', inBox_iff]
    constructor
    · intro h
      have hi := h i
      rw [Function.update_self] at hi
      refine ⟨fun j => ?_, fun hin => by linarith [hin.2]⟩
      rcases eq_or_ne j i with rfl | hj
      · exact ⟨by linarith, hi.2⟩
      · have hj' := h j
        rwa [Function.update_of_ne hj] at hj'
    · rintro ⟨hin, hout⟩ j
      rcases eq_or_ne j i with rfl | hj
      · rw [Function.update_self]
        refine ⟨?_, (hin j).2⟩
        by_contra hlt
        exact hout ⟨by linarith [(hin j).1], by linarith⟩
      · rw [Function.update_of_ne hj]
        exact hin j
  | up =>
    simp only [shift, Option.mem_some_iff, exists_eq_left', inBox_iff]
    constructor
    · intro h
      have hi := h i
      rw [Function.update_self] at hi
      refine ⟨fun j => ?_, fun hin => by linarith [hin.1]⟩
      rcases eq_or_ne j i with rfl | hj
      · exact ⟨hi.1, by linarith⟩
      · have hj' := h j
        rwa [Function.update_of_ne hj] at hj'
    · rintro ⟨hin, hout⟩ j
      rcases eq_or_ne j i with rfl | hj
      · rw [Function.update_self]
        refine ⟨(hin j).1, ?_⟩
        by_contra hlt
        exact hout ⟨by linarith, by linarith [(hin j).2]⟩
      · rw [Function.update_of_ne hj]
        exact hin j

/-- The boxes that are deleted make up what the cube leaves. -/
theorem deleted_iff_left {cube : Box K} (hcube : Sided cfg cube) (hmov : 0 ≤ movDist cfg)
    (hlen : movDist cfg ≤ cfg.cubeLen) (posLid : Fin 3 → K) (p : Point K) :
    (∃ box ∈ (lasermapFovSegment cfg (some cube) posLid).2, inBox box p = true) ↔
      inBox cube p = true ∧
        ¬ inBox (lasermapFovSegment cfg (some cube) posLid).1 p = true := by
  have hmem (box : Box K) : box ∈ (lasermapFovSegment cfg (some cube) posLid).2 ↔
      ∃ i, box ∈ leftBox cfg cube posLid i := by
    simp only [lasermapFovSegment, List.mem_filterMap, Option.mem_def]
    constructor
    · rintro ⟨i, -, hi⟩
      exact ⟨i, hi⟩
    · rintro ⟨i, hi⟩
      exact ⟨i, List.mem_finRange i, hi⟩
  have hslice (i : Fin 3) := inBox_leftBox_iff posLid i p hcube hmov hlen
  change _ ↔ inBox cube p = true ∧ ¬ inBox (moved cfg cube posLid) p = true
  rw [inBox_moved_iff, not_forall]
  constructor
  · rintro ⟨box, hbox, hin⟩
    obtain ⟨i, hi⟩ := (hmem box).mp hbox
    obtain ⟨hcubeIn, hout⟩ := (hslice i).mp ⟨box, hi, hin⟩
    exact ⟨hcubeIn, i, hout⟩
  · rintro ⟨hin, i, hout⟩
    obtain ⟨box, hbox, hinBox⟩ := (hslice i).mpr ⟨hin, hout⟩
    exact ⟨box, (hmem box).mpr ⟨i, hbox⟩, hinBox⟩

/-! ### Where the sensor is -/

theorem movDist_pos (hrange : 0 < cfg.detRange) : 0 < movDist cfg :=
  lt_max_of_lt_right (mul_pos hrange (by norm_num))

theorem movDist_lt (hrange : 0 < cfg.detRange) (hlen : 3.5 * cfg.detRange < cfg.cubeLen) :
    movDist cfg < cfg.cubeLen - 2 * threshold cfg := by
  unfold movDist threshold
  norm_num at hlen ⊢
  exact ⟨by linarith, by linarith⟩

theorem movDist_le (hrange : 0 < cfg.detRange) (hlen : 3.5 * cfg.detRange < cfg.cubeLen) :
    movDist cfg ≤ cfg.cubeLen := by
  have hlt := movDist_lt hrange hlen
  have hthreshold : 0 < threshold cfg := mul_pos (by norm_num) hrange
  linarith

theorem inside_moved (hrange : 0 < cfg.detRange) (hlen : 3.5 * cfg.detRange < cfg.cubeLen)
    {cube : Box K} (hcube : Sided cfg cube) {posLid posLid' : Fin 3 → K}
    (hin : Inside cfg cube posLid) (hnear : Near cfg posLid posLid') :
    Inside cfg (moved cfg cube posLid') posLid' := by
  intro i
  have hmov := movDist_lt hrange hlen
  have hpos := movDist_pos hrange
  obtain ⟨hmin, hmax⟩ := hin i
  obtain ⟨hstep, hstep'⟩ := hnear i
  have hside := hcube i
  rw [abs_le] at hstep hstep'
  simp only [moved, axisMove]
  split_ifs with hdown hup
  · rw [abs_le] at hdown
    simp only [shift]
    constructor <;> linarith
  · rw [abs_le] at hup
    simp only [shift]
    constructor <;> linarith
  · -- Neither edge is near, and the sensor is still between them.
    simp only [shift, add_zero]
    rw [not_le, lt_abs] at hdown hup
    rcases hdown with hdown | hdown
    · rcases hup with hup | hup
      · constructor <;> linarith
      · constructor <;> linarith
    · constructor <;> linarith

omit [IsStrictOrderedRing K] in
theorem cubeAfter_append (positions : List (Fin 3 → K)) (posLid : Fin 3 → K) :
    cubeAfter cfg (positions ++ [posLid])
      = some (lasermapFovSegment cfg (cubeAfter cfg positions) posLid).1 := by
  rw [cubeAfter, List.foldl_append]
  rfl

theorem inside_initial (hrange : 0 < cfg.detRange) (hlen : 3.5 * cfg.detRange < cfg.cubeLen)
    (posLid : Fin 3 → K) : Inside cfg (lasermapFovSegment cfg none posLid).1 posLid := by
  intro i
  simp only [lasermapFovSegment, threshold]
  norm_num at hlen ⊢
  linarith

theorem cubeAfter_inside (hrange : 0 < cfg.detRange) (hlen : 3.5 * cfg.detRange < cfg.cubeLen)
    (positions : List (Fin 3 → K)) (posLid : Fin 3 → K)
    (hrun : (positions ++ [posLid]).IsChain (Near cfg)) :
    ∃ cube, cubeAfter cfg (positions ++ [posLid]) = some cube ∧ Sided cfg cube ∧
      Inside cfg cube posLid := by
  induction positions using List.reverseRecOn generalizing posLid with
  | nil => exact ⟨_, rfl, sided_initial posLid, inside_initial hrange hlen posLid⟩
  | append_singleton positions before ih =>
    obtain ⟨hbefore, -, hnear⟩ := List.isChain_append.mp hrun
    obtain ⟨cube, hcube, hsided, hin⟩ := ih before hbefore
    refine ⟨_, cubeAfter_append _ posLid, ?_, ?_⟩
    · rw [hcube]
      exact sided_moved hsided posLid
    · rw [hcube]
      exact inside_moved hrange hlen hsided hin
        (hnear before (by simp) posLid (by simp))

/-- A narrow cube around the origin, and the sensor at the edge of the threshold: the cube moves
too far. -/
theorem not_inside_after_edge (hlen : cfg.cubeLen ≤ 3.5 * cfg.detRange)
    (hroom : threshold cfg < cfg.cubeLen / 2) :
    ∃ edge, Near cfg (fun _ => 0) edge ∧
      ∀ cube, cubeAfter cfg [fun _ => 0, edge] = some cube → ¬ Inside cfg cube edge := by
  have hthreshold : threshold cfg = 3 / 2 * cfg.detRange := by
    unfold threshold
    norm_num
  have hmov : cfg.detRange / 2 ≤ movDist cfg := by
    refine le_trans (le_of_eq ?_) (le_max_right _ _)
    ring
  norm_num at hlen
  set edge : Fin 3 → K := fun _ => threshold cfg - cfg.cubeLen / 2 with hedge
  refine ⟨edge, fun i => ?_, fun cube hcube hin => ?_⟩
  · have habs : |edge i - 0| = cfg.cubeLen / 2 - threshold cfg := by
      rw [hedge, sub_zero, abs_sub_comm, abs_of_nonneg (by linarith)]
    rw [habs]
    constructor <;> linarith
  · obtain ⟨first, hfirst⟩ : ∃ first, first = (lasermapFovSegment cfg none fun _ => 0).1 :=
      ⟨_, rfl⟩
    have hface : first.vertexMin 0 = -(cfg.cubeLen / 2) ∧
        first.vertexMax 0 = cfg.cubeLen / 2 := by
      rw [hfirst]
      simp only [lasermapFovSegment]
      norm_num
    have heq : cube = moved cfg first edge := by
      rw [hfirst]
      exact (Option.some.inj hcube).symm
    have hdown : axisMove cfg first edge 0 = .down := by
      refine if_pos ?_
      rw [hface.1, hedge, sub_neg_eq_add, sub_add_cancel, abs_of_nonneg (by linarith)]
    have hmax : threshold cfg
        < first.vertexMax 0 + shift cfg (axisMove cfg first edge 0) - edge 0 := by
      have hmax := (hin 0).2
      rw [heq] at hmax
      exact hmax
    rw [hdown, hface.2, hedge] at hmax
    simp only [shift] at hmax
    linarith

end Geometry

def wide : Config ℚ := ⟨1000, 100, 0.5⟩

/-- `Nearest_Points` go with the points. -/
structure Scan (K : Type) where
  posLid : Fin 3 → K
  flgEkfInited : Bool
  points : List (Point K × List (Point K))

structure Mapping (K : Type) where
  localMapPoints : Option (Box K)
  ikdtree : IkdTree.Tree K

inductive Choice where
  | downsample
  | noNeedDownsample
  | skip
  deriving DecidableEq

def numMatchPoints : ℕ := 5

section Program
variable {K : Type} [Field K] [LinearOrder K] [FloorRing K]

def params (cfg : Config K) : Params K := ⟨0.5, 0.6, cfg.filterSizeMapMin⟩

def choose (cfg : Config K) (flgEkfInited : Bool) (p : Point K) (pointsNear : List (Point K)) :
    Choice :=
  match pointsNear, flgEkfInited with
  | nearest :: rest, true =>
    let mid : Fin 3 → K := fun i =>
      ⌊coord p i / cfg.filterSizeMapMin⌋ * cfg.filterSizeMapMin + 0.5 * cfg.filterSizeMapMin
    if ∀ i, 0.5 * cfg.filterSizeMapMin < |coord nearest i - mid i| then .noNeedDownsample
    else if numMatchPoints ≤ (nearest :: rest).length ∧
        ∃ q ∈ (nearest :: rest).take numMatchPoints,
          calcDist (coord q) mid < calcDist (coord p) mid then
      .skip
    else .downsample
  | _, _ => .downsample

def chosen (cfg : Config K) (scan : Scan K) (choice : Choice) : List (Point K) :=
  (scan.points.filter fun x => choose cfg scan.flgEkfInited x.1 x.2 = choice).map Prod.fst

def mapIncremental (nth : NthElement K) (cfg : Config K) (scan : Scan K) (ikdtree : IkdTree.Tree K) :
    Option (IkdTree.Tree K) :=
  (addPoints nth (params cfg) true (chosen cfg scan .downsample) ikdtree).bind
    (addPoints nth (params cfg) false (chosen cfg scan .noNeedDownsample))

/-- What `timer_callback` does to the map, absent where it reads the axis of a null root. -/
def step (nth : NthElement K) (cfg : Config K) (s : Mapping K) (scan : Scan K) :
    Option (Mapping K) :=
  let (cube, cubNeedrm) := lasermapFovSegment cfg s.localMapPoints scan.posLid
  let ikdtree :=
    if 0 < cubNeedrm.length then (deletePointBoxes nth (params cfg) cubNeedrm s.ikdtree).1
    else s.ikdtree
  match ikdtree.root? with
  | none =>
    some ⟨some cube,
      if 5 < scan.points.length then buildTree nth (scan.points.map Prod.fst) else ikdtree⟩
  | some _ =>
    if scan.points.length < 5 then some ⟨some cube, ikdtree⟩
    else (mapIncremental nth cfg scan ikdtree).map fun ikdtree => ⟨some cube, ikdtree⟩

def run (nth : NthElement K) (cfg : Config K) (scans : List (Scan K)) : Option (Mapping K) :=
  scans.foldlM (step nth cfg) ⟨none, .nil⟩

end Program

/-! ### The map follows the cube -/

section Following
variable {K : Type} [Field K] [LinearOrder K] [FloorRing K]

/-- What a scan does to the points of the map, `none` before the first tree. -/
inductive Follows (cfg : Config K) (cube : Box K) (scan : Scan K) :
    Option (Multiset (Point K)) → Option (Multiset (Point K)) → Prop
  | wait (h : scan.points.length ≤ 5) : Follows cfg cube scan none none
  | build (h : 5 < scan.points.length) :
      Follows cfg cube scan none (some (scan.points.map Prod.fst : List (Point K)))
  | thin {M} (h : scan.points.length < 5) :
      Follows cfg cube scan (some M) (some (M.filter fun p => inBox cube p = true))
  | grow {M M₁ M'} (h : 5 ≤ scan.points.length)
      (hsampled : Added (params cfg) true (chosen cfg scan .downsample)
        (M.filter fun p => inBox cube p = true) M₁)
      (hplain : Added (params cfg) false (chosen cfg scan .noNeedDownsample) M₁ M') :
      Follows cfg cube scan (some M) (some M')

/-- The points that a tree holds. -/
def contents (t : IkdTree.Tree K) : Option (Multiset (Point K)) :=
  t.root?.map fun _ => ((flatten t).2 : Multiset (Point K))

theorem added_subset {params : Params K} {downsampleOn : Bool} {ps : List (Point K)}
    {M M' : Multiset (Point K)} (h : Added params downsampleOn ps M M') :
    ∀ p ∈ M', p ∈ M ∨ p ∈ ps := by
  induction h with
  | nil => exact fun p hp => Or.inl hp
  | plain _ ih =>
    intro p hp
    rcases ih p hp with hM | hps
    · rcases Multiset.mem_add.mp hM with hnew | hM
      · exact Or.inr (Multiset.mem_singleton.mp hnew ▸ List.mem_cons_self)
      · exact Or.inl hM
    · exact Or.inr (List.mem_cons_of_mem _ hps)
  | sampled hfirst _ ih =>
    intro p hp
    obtain ⟨best, hbest, -, rfl⟩ := hfirst
    rcases ih p hp with hM | hps
    · rcases Multiset.mem_add.mp hM with hnew | hM
      · rw [Multiset.mem_singleton.mp hnew]
        rcases Multiset.mem_add.mp hbest with hown | hold
        · exact Or.inr (Multiset.mem_singleton.mp hown ▸ List.mem_cons_self)
        · exact Or.inl (Multiset.mem_filter.mp hold).1
      · exact Or.inl (Multiset.mem_filter.mp hM).1
    · exact Or.inr (List.mem_cons_of_mem _ hps)

variable {cfg : Config K}

omit [Field K] [FloorRing K] in
theorem contents_eq {t : IkdTree.Tree K} (ht : Inv t) : contents t = t.root?.map fun _ => live t := by
  rw [contents, (inv_flatten ht).2.2.1]

omit [Field K] [LinearOrder K] [FloorRing K] in
theorem root_eq_none_iff {t : IkdTree.Tree K} : t.root? = none ↔ t = .nil := by
  cases t with
  | nil => exact ⟨fun _ => rfl, fun _ => rfl⟩
  | node d l r => exact ⟨(nomatch ·), (nomatch ·)⟩

omit [Field K] [LinearOrder K] [FloorRing K] in
theorem root_of_ne_nil {t : IkdTree.Tree K} (h : t ≠ .nil) : ∃ d, t.root? = some d :=
  Option.ne_none_iff_exists'.mp fun hnone => h (root_eq_none_iff.mp hnone)

omit [FloorRing K] in
theorem deletePointBoxes_nil (nth : NthElement K) (params : Params K) (boxes : List (Box K)) :
    (deletePointBoxes nth params boxes .nil).1 = .nil := by
  induction boxes with
  | nil => rfl
  | cons box boxes ih =>
    rw [deletePointBoxes, deleteByRange]
    exact ih

theorem mem_chosen {scan : Scan K} {choice : Choice} {p : Point K}
    (h : p ∈ chosen cfg scan choice) : ∃ x ∈ scan.points, x.1 = p := by
  obtain ⟨x, hx, rfl⟩ := List.mem_map.mp h
  exact ⟨x, (List.mem_filter.mp hx).1, rfl⟩

/-- The cube and the tree between two scans. -/
structure Holds (cfg : Config K) (s : Mapping K) : Prop where
  inv : Inv s.ikdtree
  empty : s.localMapPoints = none → s.ikdtree = .nil
  sided : ∀ cube ∈ s.localMapPoints, Sided cfg cube
  within : ∀ cube ∈ s.localMapPoints, ∀ p ∈ live s.ikdtree, inBox cube p = true

/-- No return is further than the threshold. -/
def InRange (cfg : Config K) (scan : Scan K) : Prop :=
  ∀ x ∈ scan.points, ∀ i, |coord x.1 i - scan.posLid i| ≤ threshold cfg

variable [IsStrictOrderedRing K]

omit [FloorRing K] in
theorem InRange.inBox {scan : Scan K} (h : InRange cfg scan) {cube : Box K}
    (hin : Inside cfg cube scan.posLid) : ∀ x ∈ scan.points, inBox cube x.1 = true := by
  intro x hx
  refine inBox_iff.mpr fun i => ?_
  have hrange := abs_le.mp (h x hx i)
  obtain ⟨hmin, hmax⟩ := hin i
  constructor <;> linarith

omit [FloorRing K] in
/-- `Delete_Point_Boxes` leaves the points that are in the cube after the call. -/
theorem afterDelete (nth : NthElement K) (hrange : 0 < cfg.detRange)
    (hlen : 3.5 * cfg.detRange < cfg.cubeLen) {s : Mapping K} (hs : Holds cfg s)
    (posLid : Fin 3 → K) {t : IkdTree.Tree K}
    (ht : t = if 0 < (lasermapFovSegment cfg s.localMapPoints posLid).2.length then
        (deletePointBoxes nth (params cfg) (lasermapFovSegment cfg s.localMapPoints posLid).2
          s.ikdtree).1
      else s.ikdtree) :
    Inv t ∧ (t = .nil ↔ s.ikdtree = .nil) ∧
      live t = (live s.ikdtree).filter fun p =>
        inBox (lasermapFovSegment cfg s.localMapPoints posLid).1 p = true := by
  by_cases hnil : s.ikdtree = .nil
  · have hnil' : t = .nil := by
      rw [ht, hnil, deletePointBoxes_nil, ite_self]
    rw [hnil', hnil]
    exact ⟨trivial, Iff.rfl, rfl⟩
  obtain ⟨cube, hcube⟩ := Option.ne_none_iff_exists'.mp fun hnone => hnil (hs.empty hnone)
  rw [hcube] at ht ⊢
  have hleft := deleted_iff_left (hs.sided cube hcube) (movDist_pos hrange).le
    (movDist_le hrange hlen) posLid
  have hstays : ∀ p ∈ live s.ikdtree,
      (∀ box ∈ (lasermapFovSegment cfg (some cube) posLid).2, ¬ inBox box p = true) ↔
        inBox (lasermapFovSegment cfg (some cube) posLid).1 p = true := by
    intro p hp
    have hwas := hs.within cube hcube p hp
    have hp' := hleft p
    constructor
    · intro hnone
      by_contra hout
      obtain ⟨box, hbox, hin⟩ := hp'.mpr ⟨hwas, hout⟩
      exact hnone box hbox hin
    · intro hin box hbox hinBox
      exact (hp'.mp ⟨box, hbox, hinBox⟩).2 hin
  obtain ⟨hinv, hne, hlive, -⟩ := deletePointBoxes_spec nth (params cfg)
    (lasermapFovSegment cfg (some cube) posLid).2 hs.inv hnil
  rw [Multiset.filter_congr hstays] at hlive
  split_ifs at ht with hboxes
  · rw [ht]
    exact ⟨hinv, ⟨fun h => absurd h hne, fun h => absurd h hnil⟩, hlive⟩
  · rw [ht]
    refine ⟨hs.inv, Iff.rfl, (Multiset.filter_eq_self.mpr fun p hp => (hstays p hp).mp ?_).symm⟩
    intro box hbox
    exact absurd (List.length_pos_of_mem hbox) hboxes

theorem mapIncremental_spec (cfg : Config K) (nth : NthElement K) (scan : Scan K)
    {t : IkdTree.Tree K} (ht : Inv t) (hne : t ≠ .nil) :
    ∃ t' M₁, mapIncremental nth cfg scan t = some t' ∧ Inv t' ∧ t' ≠ .nil ∧
      Added (params cfg) true (chosen cfg scan .downsample) (live t) M₁ ∧
      Added (params cfg) false (chosen cfg scan .noNeedDownsample) M₁ (live t') := by
  obtain ⟨t₁, hsome, hinv, hne₁, hsampled⟩ :=
    addPoints_spec nth (params cfg) true (chosen cfg scan .downsample) ht hne
  obtain ⟨t', hsome', hinv', hne', hplain⟩ :=
    addPoints_spec nth (params cfg) false (chosen cfg scan .noNeedDownsample) hinv hne₁
  refine ⟨t', live t₁, ?_, hinv', hne', hsampled, hplain⟩
  rw [mapIncremental, hsome, Option.bind_some, hsome']

/-- One scan: the map goes on, stays in the cube and follows it. -/
theorem step_spec (nth : NthElement K) (hrange : 0 < cfg.detRange)
    (hlen : 3.5 * cfg.detRange < cfg.cubeLen) {s : Mapping K} (hs : Holds cfg s) {scan : Scan K}
    (hin : Inside cfg (lasermapFovSegment cfg s.localMapPoints scan.posLid).1 scan.posLid)
    (hscan : InRange cfg scan) :
    ∃ s', step nth cfg s scan = some s' ∧ Holds cfg s' ∧
      s'.localMapPoints = some (lasermapFovSegment cfg s.localMapPoints scan.posLid).1 ∧
      Follows cfg (lasermapFovSegment cfg s.localMapPoints scan.posLid).1 scan
        (contents s.ikdtree) (contents s'.ikdtree) := by
  have hpoints := hscan.inBox hin
  have hsided : Sided cfg (lasermapFovSegment cfg s.localMapPoints scan.posLid).1 := by
    cases hcube : s.localMapPoints with
    | none => exact sided_initial scan.posLid
    | some cube => exact sided_moved (hs.sided cube hcube) scan.posLid
  unfold step
  dsimp only
  generalize ht : (if 0 < (lasermapFovSegment cfg s.localMapPoints scan.posLid).2.length then
        (deletePointBoxes nth (params cfg) (lasermapFovSegment cfg s.localMapPoints scan.posLid).2
          s.ikdtree).1
      else s.ikdtree) = t
  obtain ⟨hinv, hnil, hlive⟩ := afterDelete nth hrange hlen hs scan.posLid ht.symm
  generalize (lasermapFovSegment cfg s.localMapPoints scan.posLid).1 = cube at *
  -- What is left to show of a new tree.
  have hholds {t' : IkdTree.Tree K} (hinv' : Inv t') (hcube : ∀ p ∈ live t', inBox cube p = true) :
      Holds cfg ⟨some cube, t'⟩ :=
    { inv := hinv'
      empty := fun h => nomatch h
      sided := by
        rintro c ⟨⟩
        exact hsided
      within := by
        rintro c ⟨⟩
        exact hcube }
  have hthin : ∀ p ∈ live t, inBox cube p = true := by
    rw [hlive]
    exact fun p hp => (Multiset.mem_filter.mp hp).2
  rw [contents_eq hs.inv]
  by_cases hempty : t = .nil
  · rw [hnil.mp hempty, root_eq_none_iff.mpr hempty]
    dsimp only
    split_ifs with hfive
    · obtain ⟨hbuilt, hbuiltLive⟩ := inv_buildTree nth (scan.points.map Prod.fst)
      have hsome : buildTree nth (scan.points.map Prod.fst) ≠ .nil := by
        refine ne_nil_of_live ?_
        rw [hbuiltLive]
        intro hzero
        have hnone := congrArg Multiset.card hzero
        rw [Multiset.coe_card, List.length_map, Multiset.card_zero] at hnone
        omega
      refine ⟨_, rfl, hholds hbuilt ?_, rfl, ?_⟩
      · rw [hbuiltLive]
        intro p hp
        obtain ⟨x, hx, rfl⟩ := List.mem_map.mp (Multiset.mem_coe.mp hp)
        exact hpoints x hx
      · obtain ⟨d, hd⟩ := root_of_ne_nil hsome
        rw [contents_eq hbuilt, hd, hbuiltLive]
        exact .build hfive
    · refine ⟨_, rfl, hholds hinv hthin, rfl, ?_⟩
      rw [contents_eq hinv, hempty]
      exact .wait (by omega)
  · obtain ⟨d, hd⟩ := root_of_ne_nil hempty
    obtain ⟨d₀, hd₀⟩ := root_of_ne_nil fun h => hempty (hnil.mpr h)
    rw [hd, hd₀]
    dsimp only
    split_ifs with hfive
    · refine ⟨_, rfl, hholds hinv hthin, rfl, ?_⟩
      rw [contents_eq hinv, hd, hlive]
      exact .thin hfive
    · obtain ⟨t', M₁, hsome, hinv', hne', hsampled, hplain⟩ :=
        mapIncremental_spec cfg nth scan hinv hempty
      refine ⟨⟨some cube, t'⟩, by rw [hsome]; rfl, hholds hinv' ?_, rfl, ?_⟩
      · intro p hp
        rcases added_subset hplain p hp with hp | hp
        · rcases added_subset hsampled p hp with hp | hp
          · exact hthin p hp
          · obtain ⟨x, hx, rfl⟩ := mem_chosen hp
            exact hpoints x hx
        · obtain ⟨x, hx, rfl⟩ := mem_chosen hp
          exact hpoints x hx
      · obtain ⟨d', hd'⟩ := root_of_ne_nil hne'
        rw [contents_eq hinv', hd']
        rw [hlive] at hsampled
        exact .grow (by omega) hsampled hplain

/-- The map after the scans of a run. -/
inductive FollowsAll (cfg : Config K) : List (Scan K) → Option (Multiset (Point K)) → Prop
  | nil : FollowsAll cfg [] none
  | snoc {scans scan cube M M'} : FollowsAll cfg scans M →
      cubeAfter cfg ((scans ++ [scan]).map Scan.posLid) = some cube →
      Follows cfg cube scan M M' → FollowsAll cfg (scans ++ [scan]) M'

omit [IsStrictOrderedRing K] in
theorem run_append (nth : NthElement K) (scans : List (Scan K)) (scan : Scan K) :
    run nth cfg (scans ++ [scan]) = (run nth cfg scans).bind fun s => step nth cfg s scan := by
  rw [run, List.foldlM_append]
  simp only [List.foldlM_cons, List.foldlM_nil, bind_pure]
  rfl

end Following
/-! ### A drive -/

def returns (x : ℚ) : List (Point ℚ × List (Point ℚ)) :=
  [(⟨x, 1, 0, 0, 0⟩, []), (⟨x, 2, 0, 0, 0⟩, [⟨0, 2, 0, 0, 0⟩]), (⟨x, 3, 0, 0, 0⟩, []),
    (⟨x, 4, 0, 0, 0⟩, []), (⟨x, 5, 0, 0, 0⟩, []), (⟨x, 6, 0, 0, 0⟩, [])]

def drive : List (Scan ℚ) :=
  [⟨fun _ => 0, false, returns 0⟩, ⟨fun _ => 100, true, returns 100⟩]

end LocalMap
end RtkLocalization
