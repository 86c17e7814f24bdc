import RtkLocalization.IkdTreeOps
import Mathlib.Data.List.Sort
import Mathlib.Data.Rat.Floor
import Mathlib.Tactic.FieldSimp
import Mathlib.Tactic.Positivity

/-!
# The tree as a multiset

What a run of the interface does, said of the multiset of the points alone.
-/

namespace RtkLocalization
namespace IkdTree

open LaserMapping (Point)

section Runs
variable {K : Type} [Field K] [LinearOrder K] [FloorRing K]

inductive Operation (K : Type) where
  | addPoints (downsampleOn : Bool) (points : List (Point K))
  | deletePointBoxes (boxes : List (Box K))
  | boxSearch (box : Box K)

structure Answer (K : Type) where
  points : List (Point K)
  deleted : ℤ

def perform (nth : NthElement K) (params : Params K) (t : Tree K) :
    Operation K → Option (Tree K × Answer K)
  | .addPoints downsampleOn points =>
    (addPoints nth params downsampleOn points t).map fun t' => (t', ⟨[], 0⟩)
  | .deletePointBoxes boxes =>
    let (t', count) := deletePointBoxes nth params boxes t
    some (t', ⟨[], count⟩)
  | .boxSearch box =>
    let (t', storage) := searchByRange box t
    some (t', ⟨storage, 0⟩)

/-- A run, absent where it reads the axis of a root that is null. -/
def performAll (nth : NthElement K) (params : Params K) :
    List (Operation K) → Tree K → Option (Tree K × List (Answer K))
  | [], t => some (t, [])
  | x :: xs, t =>
    (perform nth params t x).bind fun (t', answer) =>
      (performAll nth params xs t').map fun (t'', answers) => (t'', answer :: answers)

/-! ### The multiset -/

/-- The cell of `p` is left with the point nearest to its middle. -/
def Sampled (params : Params K) (p : Point K) (M M' : Multiset (Point K)) : Prop :=
  ∃ best ∈ {p} + M.filter (fun q => inBox (boxOfPoint params.downsampleSize p) q = true),
    (∀ q ∈ {p} + M.filter (fun q => inBox (boxOfPoint params.downsampleSize p) q = true),
      calcDist (coord best) (midPoint (boxOfPoint params.downsampleSize p))
        ≤ calcDist (coord q) (midPoint (boxOfPoint params.downsampleSize p))) ∧
    M' = {best} + M.filter (fun q => ¬ inBox (boxOfPoint params.downsampleSize p) q = true)

inductive Added (params : Params K) :
    Bool → List (Point K) → Multiset (Point K) → Multiset (Point K) → Prop
  | nil {downsampleOn M} : Added params downsampleOn [] M M
  | plain {p ps M M'} : Added params false ps ({p} + M) M' → Added params false (p :: ps) M M'
  | sampled {p ps M M₁ M'} : Sampled params p M M₁ → Added params true ps M₁ M' →
      Added params true (p :: ps) M M'

/-- What an operation does to the multiset, and what it answers. -/
def Performs (params : Params K) (M : Multiset (Point K)) :
    Operation K → Answer K → Multiset (Point K) → Prop
  | .addPoints downsampleOn points, _, M' => Added params downsampleOn points M M'
  | .deletePointBoxes boxes, answer, M' =>
    M' = M.filter (fun p => ∀ box ∈ boxes, ¬ inBox box p = true) ∧
      answer.deleted = M.card - M'.card
  | .boxSearch box, answer, M' =>
    M' = M ∧ (answer.points : Multiset (Point K)) = M.filter (fun p => inBox box p = true)

inductive PerformsAll (params : Params K) :
    Multiset (Point K) → List (Operation K) → List (Answer K) → Multiset (Point K) → Prop
  | nil {M} : PerformsAll params M [] [] M
  | cons {M M₁ M' x answer xs answers} : Performs params M x answer M₁ →
      PerformsAll params M₁ xs answers M' →
      PerformsAll params M (x :: xs) (answer :: answers) M'

/-! ### Refinement -/

variable (nth : NthElement K) (params : Params K)

omit [FloorRing K] in
theorem addAtRoot_spec (point : Point K) {t : Tree K} (ht : Inv t) (hne : t ≠ .nil) :
    ∃ t', addAtRoot nth params point t = some t' ∧ Inv t' ∧ live t' = {point} + live t := by
  cases t with
  | nil => exact absurd rfl hne
  | node d l r =>
    obtain ⟨hinv, hlive, -⟩ := inv_addByPoint nth params point true d.divisionAxis ht
    exact ⟨_, rfl, hinv, hlive⟩

omit [FloorRing K] in
theorem downsampleResult_least (mid : Fin 3 → K) (new : Point K) (storage : List (Point K)) :
    downsampleResult mid new storage ∈ new :: storage ∧
      ∀ q ∈ new :: storage,
        calcDist (coord (downsampleResult mid new storage)) mid ≤ calcDist (coord q) mid := by
  obtain ⟨-, hmem, hleast⟩ := Selection.foldl_keepFirst_least
    (fun p => calcDist (coord p) mid) new storage
  exact ⟨hmem, fun q hq => not_lt.mp (hleast q hq)⟩

theorem samePoint_self [IsStrictOrderedRing K] (p : Point K) : samePoint p p = true := by
  refine decide_eq_true fun i => ?_
  rw [sub_self, abs_zero]
  norm_num

theorem addDownsampled_spec [IsStrictOrderedRing K] (point : Point K) {t : Tree K} (ht : Inv t)
    (hne : t ≠ .nil) :
    ∃ t', addDownsampled nth params point t = some t' ∧ Inv t' ∧ t' ≠ .nil ∧
      Sampled params point (live t) (live t') := by
  obtain ⟨hsearch, hsame, hstorage, hcount⟩ :=
    inv_searchByRange (boxOfPoint params.downsampleSize point) ht
  unfold addDownsampled
  dsimp only
  set box := boxOfPoint params.downsampleSize point
  set storage := (searchByRange box t).2
  set t₁ := (searchByRange box t).1
  have hne₁ : t₁ ≠ .nil := by
    intro hnil
    rw [hnil] at hcount
    cases t with
    | nil => exact hne rfl
    | node d l r =>
      rw [Tree.count, Tree.count] at hcount
      omega
  obtain ⟨hmem, hleast⟩ := downsampleResult_least (midPoint box) point storage
  set result := downsampleResult (midPoint box) point storage
  have hcandidates : ((point :: storage : List (Point K)) : Multiset (Point K))
      = {point} + (live t).filter (fun q => inBox box q = true) := by
    rw [← hstorage, ← Multiset.cons_coe, Multiset.singleton_add]
  have hsampled (M' : Multiset (Point K))
      (h : M' = {result} + (live t).filter (fun q => ¬ inBox box q = true)) :
      Sampled params point (live t) M' := by
    refine ⟨result, ?_, fun q hq => ?_, h⟩
    · rw [← hcandidates]
      exact Multiset.mem_coe.mpr hmem
    · rw [← hcandidates] at hq
      exact hleast q (Multiset.mem_coe.mp hq)
  by_cases hadd : (decide (1 < storage.length) || samePoint point result) = true
  · rw [if_pos hadd]
    obtain ⟨hinv, hne₂, hlive⟩ : Inv (if 0 < storage.length then
          (deleteByRange nth params box true true t₁).1 else t₁) ∧
        (if 0 < storage.length then (deleteByRange nth params box true true t₁).1 else t₁) ≠ .nil ∧
        live (if 0 < storage.length then (deleteByRange nth params box true true t₁).1 else t₁)
          = (live t).filter (fun q => ¬ inBox box q = true) := by
      split_ifs with hlength
      · obtain ⟨hinv, hlive, -, hnil, -⟩ := inv_deleteByRange nth params box true true hsearch
        exact ⟨hinv, hnil hne₁, by rw [hlive, hsame]⟩
      · have hempty : storage = [] := List.length_eq_zero_iff.mp (by omega)
        have hnone : (live t).filter (fun q => inBox box q = true) = 0 := by
          rw [← hstorage, hempty]
          rfl
        exact ⟨hsearch, hne₁, by
          rw [hsame, Multiset.filter_eq_self.mpr (Multiset.filter_eq_nil.mp hnone)]⟩
    obtain ⟨t', hsome, hinv', hlive'⟩ := addAtRoot_spec nth params result hinv hne₂
    refine ⟨t', hsome, hinv', ne_nil_of_live ?_, hsampled _ (by rw [hlive', hlive])⟩
    rw [hlive', Multiset.singleton_add]
    exact Multiset.cons_ne_zero
  · rw [if_neg hadd]
    rw [Bool.or_eq_true, decide_eq_true_iff, not_or] at hadd
    have hne' : result ≠ point := fun heq => hadd.2 (by rw [heq]; exact samePoint_self point)
    have hin : result ∈ storage := (List.mem_cons.mp hmem).resolve_left hne'
    obtain ⟨q, hq⟩ : ∃ q, storage = [q] :=
      List.length_eq_one_iff.mp (by have := List.length_pos_of_mem hin; omega)
    rw [hq, List.mem_singleton] at hin
    refine ⟨t₁, rfl, hsearch, hne₁, hsampled _ ?_⟩
    conv_lhs => rw [hsame, ← Multiset.filter_add_not (fun q => inBox box q = true) (live t)]
    rw [← hstorage, hq, hin, Multiset.coe_singleton]

theorem addPoints_spec [IsStrictOrderedRing K] (downsampleOn : Bool) (points : List (Point K))
    {t : Tree K} (ht : Inv t) (hne : t ≠ .nil) :
    ∃ t', addPoints nth params downsampleOn points t = some t' ∧ Inv t' ∧ t' ≠ .nil ∧
      Added params downsampleOn points (live t) (live t') := by
  induction points generalizing t with
  | nil => exact ⟨t, rfl, ht, hne, .nil⟩
  | cons p ps ih =>
    cases downsampleOn with
    | false =>
      obtain ⟨t₁, hsome, hinv, hlive⟩ := addAtRoot_spec nth params p ht hne
      have hne₁ : t₁ ≠ .nil := ne_nil_of_live (by
        rw [hlive, Multiset.singleton_add]
        exact Multiset.cons_ne_zero)
      obtain ⟨t', hsome', hinv', hne', hadded⟩ := ih hinv hne₁
      rw [hlive] at hadded
      refine ⟨t', ?_, hinv', hne', .plain hadded⟩
      rw [addPoints, if_neg Bool.false_ne_true, hsome, Option.bind_some, hsome']
    | true =>
      obtain ⟨t₁, hsome, hinv, hne₁, hsampled⟩ := addDownsampled_spec nth params p ht hne
      obtain ⟨t', hsome', hinv', hne', hadded⟩ := ih hinv hne₁
      refine ⟨t', ?_, hinv', hne', .sampled hsampled hadded⟩
      rw [addPoints, if_pos rfl, hsome, Option.bind_some, hsome']

omit [FloorRing K] in
theorem deletePointBoxes_spec (boxes : List (Box K)) {t : Tree K} (ht : Inv t) (hne : t ≠ .nil) :
    Inv (deletePointBoxes nth params boxes t).1 ∧
      (deletePointBoxes nth params boxes t).1 ≠ .nil ∧
      live (deletePointBoxes nth params boxes t).1
        = (live t).filter (fun p => ∀ box ∈ boxes, ¬ inBox box p = true) ∧
      (deletePointBoxes nth params boxes t).2
        = (live t).card - (live (deletePointBoxes nth params boxes t).1).card := by
  induction boxes generalizing t with
  | nil =>
    refine ⟨ht, hne, ?_, (sub_self _).symm⟩
    exact (Multiset.filter_eq_self.mpr fun p _ box hbox => absurd hbox List.not_mem_nil).symm
  | cons box boxes ih =>
    obtain ⟨hinv, hlive, hcount, hnil, -⟩ := inv_deleteByRange nth params box true false ht
    obtain ⟨hinv', hne', hlive', hcount'⟩ := ih hinv (hnil hne)
    refine ⟨hinv', hne', ?_, ?_⟩
    · refine hlive'.trans ?_
      rw [hlive, Multiset.filter_filter]
      refine Multiset.filter_congr fun p _ => ?_
      rw [List.forall_mem_cons, and_comm]
    · have hsplit := congrArg Multiset.card
        (Multiset.filter_add_not (fun p => inBox box p = true) (live t))
      rw [Multiset.card_add] at hsplit
      have hcard := congrArg Multiset.card hlive
      change (deleteByRange nth params box true false t).2 + (deletePointBoxes nth params boxes _).2
        = (live t).card - (live (deletePointBoxes nth params boxes _).1).card
      omega

omit [Field K] [FloorRing K] in
theorem searchByRange_ne_nil (box : Box K) {t : Tree K} (ht : Inv t) (hne : t ≠ .nil) :
    (searchByRange box t).1 ≠ .nil := by
  obtain ⟨-, -, -, hcount⟩ := inv_searchByRange box ht
  intro hnil
  rw [hnil] at hcount
  cases t with
  | nil => exact hne rfl
  | node d l r =>
    rw [Tree.count, Tree.count] at hcount
    omega

theorem perform_spec [IsStrictOrderedRing K] (x : Operation K) {t : Tree K} (ht : Inv t)
    (hne : t ≠ .nil) :
    ∃ t' answer, perform nth params t x = some (t', answer) ∧ Inv t' ∧ t' ≠ .nil ∧
      Performs params (live t) x answer (live t') := by
  cases x with
  | addPoints downsampleOn points =>
    obtain ⟨t', hsome, hinv, hne', hadded⟩ := addPoints_spec nth params downsampleOn points ht hne
    exact ⟨t', ⟨[], 0⟩, by rw [perform, hsome, Option.map_some], hinv, hne', hadded⟩
  | deletePointBoxes boxes =>
    obtain ⟨hinv, hne', hlive, hcount⟩ := deletePointBoxes_spec nth params boxes ht hne
    exact ⟨_, _, rfl, hinv, hne', hlive, hcount⟩
  | boxSearch box =>
    obtain ⟨hinv, hlive, hstorage, -⟩ := inv_searchByRange box ht
    exact ⟨_, _, rfl, hinv, searchByRange_ne_nil box ht hne, hlive, hstorage⟩

theorem performAll_spec [IsStrictOrderedRing K] (xs : List (Operation K)) {t : Tree K}
    (ht : Inv t) (hne : t ≠ .nil) :
    ∃ t' answers, performAll nth params xs t = some (t', answers) ∧ Inv t' ∧ t' ≠ .nil ∧
      PerformsAll params (live t) xs answers (live t') := by
  induction xs generalizing t with
  | nil => exact ⟨t, [], rfl, ht, hne, .nil⟩
  | cons x xs ih =>
    obtain ⟨t₁, answer, hsome, hinv, hne₁, hperforms⟩ := perform_spec nth params x ht hne
    obtain ⟨t', answers, hsome', hinv', hne', hall⟩ := ih hinv hne₁
    refine ⟨t', answer :: answers, ?_, hinv', hne', .cons hperforms hall⟩
    rw [performAll, hsome, Option.bind_some]
    dsimp only
    rw [hsome', Option.map_some]

omit [Field K] [FloorRing K] in
theorem validnum_eq {t : Tree K} (ht : Inv t) : validnum t = (live t).card := by
  cases t with
  | nil => rfl
  | node d l r => exact ht.2.2.valid

end Runs

section Sorting
variable {K : Type} [LinearOrder K]

theorem sorted_by (f : Point K → K) (xs : List (Point K)) :
    (xs.mergeSort fun a b => f a ≤ f b).Pairwise fun a b => f a ≤ f b := by
  have hsorted : (xs.mergeSort fun a b => f a ≤ f b).Pairwise
      fun a b => decide (f a ≤ f b) = true := List.pairwise_mergeSort
    (fun a b c hab hbc => by simp only [decide_eq_true_eq] at *; exact hab.trans hbc)
    (fun a b => by simp only [Bool.or_eq_true, decide_eq_true_eq]; exact le_total _ _) xs
  exact hsorted.imp fun hab => of_decide_eq_true hab

theorem le_of_mem_take {f : Point K → K} {xs : List (Point K)}
    (h : xs.Pairwise fun a b => f a ≤ f b) {n : ℕ} {a b : Point K} (ha : a ∈ xs.take n)
    (hb : b ∈ (xs.drop n).head?) : f a ≤ f b := by
  rw [← List.take_append_drop n xs] at h
  exact (List.pairwise_append.mp h).2.2 a ha b (List.mem_of_mem_head? hb)

theorem le_of_mem_drop {f : Point K → K} {xs : List (Point K)}
    (h : xs.Pairwise fun a b => f a ≤ f b) {n : ℕ} {a b : Point K} (ha : a ∈ xs.drop (n + 1))
    (hb : b ∈ (xs.drop n).head?) : f b ≤ f a := by
  obtain ⟨rest, hrest⟩ := List.head?_eq_some_iff.mp hb
  have hdrop : xs.drop (n + 1) = rest := by rw [← List.tail_drop, hrest, List.tail_cons]
  have hsorted := h.sublist (List.drop_sublist n xs)
  rw [hrest] at hsorted
  rw [hdrop] at ha
  exact (List.pairwise_cons.mp hsorted).1 a ha

/-- `nth_element` by sorting. -/
def sortedNth : NthElement K where
  run f _ xs := xs.mergeSort fun a b => f a ≤ f b
  perm _ _ xs := List.mergeSort_perm xs _
  before _ _ _ _ ha _ hb := le_of_mem_take (sorted_by _ _) ha hb
  after _ _ _ _ ha _ hb := le_of_mem_drop (sorted_by _ _) ha hb

end Sorting
/-! ### Cells -/

section Cells
variable {K : Type} [Field K] [LinearOrder K] [FloorRing K] [IsStrictOrderedRing K]
  {params : Params K}

theorem inBox_boxOfPoint_iff {downsampleSize : K} (hsize : 0 < downsampleSize) (p q : Point K) :
    inBox (boxOfPoint downsampleSize p) q = true ↔
      ∀ i, ⌊coord q i / downsampleSize⌋ = ⌊coord p i / downsampleSize⌋ := by
  rw [inBox_iff]
  refine forall_congr' fun i => ?_
  rw [Int.floor_eq_iff, le_div_iff₀ hsize, div_lt_iff₀ hsize, add_mul, one_mul]
  rfl

theorem cells_eq_or_disjoint (hsize : 0 < params.downsampleSize) {p q r : Point K}
    (hp : inBox (boxOfPoint params.downsampleSize p) r = true) :
    inBox (boxOfPoint params.downsampleSize q) r = true ↔
      inBox (boxOfPoint params.downsampleSize q) p = true := by
  rw [inBox_boxOfPoint_iff hsize] at hp ⊢
  rw [inBox_boxOfPoint_iff hsize]
  exact forall_congr' fun i => by rw [hp i]

theorem boxOfPoint_congr (hsize : 0 < params.downsampleSize) {p q : Point K}
    (h : inBox (boxOfPoint params.downsampleSize p) q = true) :
    boxOfPoint params.downsampleSize q = boxOfPoint params.downsampleSize p := by
  have hcells := (inBox_boxOfPoint_iff hsize p q).mp h
  simp only [boxOfPoint, hcells]

/-- `best` is of all points in the cell of `c` the nearest to its middle. -/
def NearestOf (params : Params K) (c best : Point K) (M : Multiset (Point K)) : Prop :=
  best ∈ M.filter (fun q => inBox (boxOfPoint params.downsampleSize c) q = true) ∧
    ∀ q ∈ M, inBox (boxOfPoint params.downsampleSize c) q = true →
      calcDist (coord best) (midPoint (boxOfPoint params.downsampleSize c))
        ≤ calcDist (coord q) (midPoint (boxOfPoint params.downsampleSize c))

theorem mem_own_cell (hsize : 0 < params.downsampleSize) (p : Point K) :
    inBox (boxOfPoint params.downsampleSize p) p = true :=
  (inBox_boxOfPoint_iff hsize p p).mpr fun _ => rfl

/-- One new point: its cell keeps one point, every other cell what it has. -/
theorem sampled_cell (hsize : 0 < params.downsampleSize) {p : Point K}
    {M M' : Multiset (Point K)} (h : Sampled params p M M') (c : Point K) :
    if inBox (boxOfPoint params.downsampleSize c) p = true then
      ∃ best, NearestOf params c best ({p} + M) ∧
        M'.filter (fun q => inBox (boxOfPoint params.downsampleSize c) q = true) = {best}
    else
      M'.filter (fun q => inBox (boxOfPoint params.downsampleSize c) q = true)
        = M.filter (fun q => inBox (boxOfPoint params.downsampleSize c) q = true) := by
  obtain ⟨best, hmem, hleast, rfl⟩ := h
  have hbest : inBox (boxOfPoint params.downsampleSize p) best = true := by
    rcases Multiset.mem_add.mp hmem with hp | hM
    · rw [Multiset.mem_singleton.mp hp]
      exact mem_own_cell hsize p
    · exact (Multiset.mem_filter.mp hM).2
  split_ifs with hc
  · rw [boxOfPoint_congr hsize hc] at hmem hleast hbest
    refine ⟨best, ⟨?_, fun q hq hqc => hleast q ?_⟩, ?_⟩
    · refine Multiset.mem_filter.mpr ⟨?_, hbest⟩
      rcases Multiset.mem_add.mp hmem with hp | hM
      · exact Multiset.mem_add.mpr (Or.inl hp)
      · exact Multiset.mem_add.mpr (Or.inr (Multiset.mem_filter.mp hM).1)
    · rcases Multiset.mem_add.mp hq with hp | hM
      · exact Multiset.mem_add.mpr (Or.inl hp)
      · exact Multiset.mem_add.mpr (Or.inr (Multiset.mem_filter.mpr ⟨hM, hqc⟩))
    · rw [boxOfPoint_congr hsize hc, Multiset.filter_add, Multiset.filter_filter,
        Multiset.filter_singleton, if_pos hbest,
        Multiset.filter_eq_nil.mpr fun q _ h => h.2 h.1, add_zero]
  · have hout : ¬ inBox (boxOfPoint params.downsampleSize c) best = true := fun hin =>
      hc ((cells_eq_or_disjoint hsize hbest).mp hin)
    rw [Multiset.filter_add, Multiset.filter_filter, Multiset.filter_singleton, if_neg hout]
    refine (zero_add _).trans (Multiset.filter_congr fun q _ => and_iff_left_of_imp fun hq hp => ?_)
    exact hc ((cells_eq_or_disjoint hsize hp).mp hq)

omit [IsStrictOrderedRing K] in
/-- A point that is nearest after the first new point and the later ones. -/
theorem NearestOf.cons {c p b₀ best : Point K} {ps : List (Point K)} {M M₁ : Multiset (Point K)}
    (hfirst : NearestOf params c b₀ ({p} + M))
    (hcell : M₁.filter (fun q => inBox (boxOfPoint params.downsampleSize c) q = true) = {b₀})
    (hrest : NearestOf params c best (ps + M₁)) :
    NearestOf params c best ((p :: ps : List (Point K)) + M) := by
  have hb₀ : b₀ ∈ M₁.filter (fun q => inBox (boxOfPoint params.downsampleSize c) q = true) := by
    rw [hcell]
    exact Multiset.mem_singleton_self b₀
  obtain ⟨hmem, hin⟩ := Multiset.mem_filter.mp hrest.1
  have hsplit (q : Point K) : q ∈ ((p :: ps : List (Point K)) + M : Multiset (Point K)) ↔
      q ∈ ps ∨ q ∈ {p} + M := by
    simp only [Multiset.mem_add, Multiset.mem_coe, List.mem_cons, Multiset.mem_singleton]
    tauto
  refine ⟨Multiset.mem_filter.mpr ⟨(hsplit best).mpr ?_, hin⟩, fun q hq hqc => ?_⟩
  · rcases Multiset.mem_add.mp hmem with hps | hM₁
    · exact Or.inl (Multiset.mem_coe.mp hps)
    · have heq : best ∈ ({b₀} : Multiset (Point K)) := by
        rw [← hcell]
        exact Multiset.mem_filter.mpr ⟨hM₁, hin⟩
      rw [Multiset.mem_singleton.mp heq]
      exact Or.inr (Multiset.mem_filter.mp hfirst.1).1
  · rcases (hsplit q).mp hq with hps | hpM
    · exact hrest.2 q (Multiset.mem_add.mpr (Or.inl (Multiset.mem_coe.mpr hps))) hqc
    · have hle := hrest.2 b₀ (Multiset.mem_add.mpr (Or.inr (Multiset.mem_filter.mp hb₀).1))
        (Multiset.mem_filter.mp hb₀).2
      exact hle.trans (hfirst.2 q hpM hqc)

omit [IsStrictOrderedRing K] in
/-- Only the points in the cell count. -/
theorem NearestOf.congr {c best : Point K} {M N : Multiset (Point K)}
    (h : NearestOf params c best M)
    (heq : M.filter (fun q => inBox (boxOfPoint params.downsampleSize c) q = true)
      = N.filter (fun q => inBox (boxOfPoint params.downsampleSize c) q = true)) :
    NearestOf params c best N := by
  refine ⟨heq ▸ h.1, fun q hq hqc => ?_⟩
  have hmem : q ∈ M.filter (fun q => inBox (boxOfPoint params.downsampleSize c) q = true) := by
    rw [heq]
    exact Multiset.mem_filter.mpr ⟨hq, hqc⟩
  exact h.2 q (Multiset.mem_filter.mp hmem).1 hqc

theorem added_cell (hsize : 0 < params.downsampleSize) {ps : List (Point K)}
    {M M' : Multiset (Point K)} (h : Added params true ps M M') (c : Point K) :
    if ∃ p ∈ ps, inBox (boxOfPoint params.downsampleSize c) p = true then
      ∃ best, NearestOf params c best (ps + M) ∧
        M'.filter (fun q => inBox (boxOfPoint params.downsampleSize c) q = true) = {best}
    else
      M'.filter (fun q => inBox (boxOfPoint params.downsampleSize c) q = true)
        = M.filter (fun q => inBox (boxOfPoint params.downsampleSize c) q = true) := by
  induction ps generalizing M with
  | nil =>
    cases h
    rw [if_neg fun ⟨p, hp, _⟩ => absurd hp List.not_mem_nil]
  | cons p ps ih =>
    cases h with
    | sampled hfirst hrest =>
      rename_i M₁
      have hstep := sampled_cell hsize hfirst c
      have htail := ih hrest
      have hcons (N : Multiset (Point K)) :
          ((p :: ps : List (Point K)) + N : Multiset (Point K)) = {p} + (ps + N) := by
        rw [← Multiset.cons_coe, ← Multiset.singleton_add, add_assoc]
      by_cases hp : inBox (boxOfPoint params.downsampleSize c) p = true
      · rw [if_pos hp] at hstep
        rw [if_pos ⟨p, List.mem_cons_self, hp⟩]
        obtain ⟨b₀, hnear, hcell⟩ := hstep
        by_cases hlater : ∃ q ∈ ps, inBox (boxOfPoint params.downsampleSize c) q = true
        · rw [if_pos hlater] at htail
          obtain ⟨best, hbest, hlast⟩ := htail
          exact ⟨best, hnear.cons hcell hbest, hlast⟩
        · rw [if_neg hlater] at htail
          refine ⟨b₀, hnear.congr ?_, htail.trans hcell⟩
          have hnone : (ps : Multiset (Point K)).filter
              (fun q => inBox (boxOfPoint params.downsampleSize c) q = true) = 0 :=
            Multiset.filter_eq_nil.mpr fun q hq hqc => hlater ⟨q, Multiset.mem_coe.mp hq, hqc⟩
          rw [hcons, Multiset.filter_add, Multiset.filter_add, Multiset.filter_add, hnone,
            zero_add]
      · rw [if_neg hp] at hstep
        by_cases hlater : ∃ q ∈ ps, inBox (boxOfPoint params.downsampleSize c) q = true
        · rw [if_pos hlater] at htail
          obtain ⟨best, hbest, hlast⟩ := htail
          obtain ⟨q, hq, hqc⟩ := hlater
          rw [if_pos ⟨q, List.mem_cons_of_mem p hq, hqc⟩]
          refine ⟨best, hbest.congr ?_, hlast⟩
          rw [hcons, Multiset.filter_add, Multiset.filter_add, Multiset.filter_add, hstep,
            Multiset.filter_singleton, if_neg hp]
          exact (zero_add _).symm
        · rw [if_neg hlater] at htail
          rw [if_neg, htail, hstep]
          rintro ⟨q, hq, hqc⟩
          rcases List.mem_cons.mp hq with rfl | hq
          · exact hp hqc
          · exact hlater ⟨q, hq, hqc⟩

end Cells

/-! ### A small map -/

def corner : List (Point ℚ) := [⟨0, 0, 0, 0, 0⟩, ⟨1, 0, 0, 0, 0⟩, ⟨0, 1, 0, 0, 0⟩]

def nearCorner : Point ℚ := ⟨0.1, 0.1, 0.1, 0, 0⟩

def cornerRun : List (Operation ℚ) :=
  [.addPoints true [nearCorner], .addPoints false [nearCorner],
    .deletePointBoxes [⟨fun _ => 0, fun _ => 2⟩], .boxSearch ⟨fun _ => 0, fun _ => 2⟩]

end IkdTree
end RtkLocalization
