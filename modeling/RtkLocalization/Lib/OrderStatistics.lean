import Mathlib.Algebra.Order.Field.Basic
import Mathlib.Algebra.Order.Floor.Ring
import Mathlib.Data.List.GetD
import Mathlib.Data.List.Sort
import Mathlib.Tactic.Linarith
import Mathlib.Tactic.NormNum

/-!
# Order statistics and quantiles

The element of a given rank, the rank of a quantile (rounded to the nearest, as
`round(q * (n - 1))`), and a quantile that is capped at a distance above the least
element.
-/

namespace OrderStatistics

section Order
variable {K : Type} [LinearOrder K] [Zero K]

/-- The element of rank `k`, the least one having rank 0. -/
def nth (xs : List K) (k : ℕ) : K := (xs.mergeSort (· ≤ ·)).getD k 0

theorem nth_mem {xs : List K} {k : ℕ} (hk : k < xs.length) : nth xs k ∈ xs := by
  have hlen : k < (xs.mergeSort (· ≤ ·)).length := by
    rw [List.length_mergeSort]
    exact hk
  rw [nth, List.getD_eq_getElem _ _ hlen]
  exact List.mem_mergeSort.mp (List.getElem_mem hlen)

theorem nth_mono {xs : List K} {j k : ℕ} (hjk : j ≤ k) (hk : k < xs.length) :
    nth xs j ≤ nth xs k := by
  have hlen : k < (xs.mergeSort (· ≤ ·)).length := by
    rw [List.length_mergeSort]
    exact hk
  have hsorted : (xs.mergeSort (· ≤ ·)).SortedLE := List.sortedLE_mergeSort
  rw [nth, nth, List.getD_eq_getElem _ _ hlen, List.getD_eq_getElem _ _ (hjk.trans_lt hlen)]
  exact hsorted.getElem_le_getElem_of_le hjk

theorem exists_nth_eq {xs : List K} {x : K} (hx : x ∈ xs) : ∃ k < xs.length, nth xs k = x := by
  obtain ⟨k, hk, hget⟩ := List.getElem_of_mem (List.mem_mergeSort.mpr hx)
  refine ⟨k, List.length_mergeSort xs ▸ hk, ?_⟩
  rw [nth, List.getD_eq_getElem _ _ hk, hget]

theorem nth_zero_le {xs : List K} {x : K} (hx : x ∈ xs) : nth xs 0 ≤ x := by
  obtain ⟨k, hk, rfl⟩ := exists_nth_eq hx
  exact nth_mono (Nat.zero_le k) hk

theorem le_nth_last {xs : List K} {x : K} (hx : x ∈ xs) : x ≤ nth xs (xs.length - 1) := by
  obtain ⟨k, hk, rfl⟩ := exists_nth_eq hx
  exact nth_mono (by omega) (by omega)

theorem nth_of_perm {xs ys : List K} (hperm : xs.Perm ys) (k : ℕ) : nth xs k = nth ys k := by
  have hsorted : (xs.mergeSort (· ≤ ·)).Perm (ys.mergeSort (· ≤ ·)) :=
    (List.mergeSort_perm xs _).trans (hperm.trans (List.mergeSort_perm ys _).symm)
  rw [nth, nth, hsorted.eq_of_pairwise' (List.pairwise_mergeSort' _ xs)
    (List.pairwise_mergeSort' _ ys)]

theorem nth_map {f : K → K} (hf : StrictMono f) {xs : List K} {k : ℕ} (hk : k < xs.length) :
    nth (xs.map f) k = f (nth xs k) := by
  have hlen : k < (xs.mergeSort (· ≤ ·)).length := by
    rw [List.length_mergeSort]
    exact hk
  have hsort : (xs.map f).mergeSort (· ≤ ·) = (xs.mergeSort (· ≤ ·)).map f := by
    refine (List.map_mergeSort ?_).symm
    intro a _ b _
    exact decide_eq_decide.mpr hf.le_iff_le.symm
  have hlen' : k < ((xs.mergeSort (· ≤ ·)).map f).length := by
    rw [List.length_map]
    exact hlen
  rw [nth, nth, hsort, List.getD_eq_getElem _ _ hlen, List.getD_eq_getElem _ _ hlen',
    List.getElem_map]

end Order

/-! ### Quantiles -/

section Quantile
variable {K : Type} [Field K] [LinearOrder K] [IsStrictOrderedRing K] [FloorRing K]

def rank (q : K) (n : ℕ) : ℕ := ⌊q * ((n - 1 : ℕ) : K) + 0.5⌋.toNat

theorem rank_lt {q : K} (hq : q ≤ 1) {n : ℕ} (hn : 0 < n) : rank q n < n := by
  have hle : q * ((n - 1 : ℕ) : K) ≤ ((n - 1 : ℕ) : K) :=
    mul_le_of_le_one_left (Nat.cast_nonneg _) hq
  have hcast : ((n - 1 : ℕ) : K) = n - 1 := by
    rw [Nat.cast_sub hn, Nat.cast_one]
  have hfloor : ⌊q * ((n - 1 : ℕ) : K) + 0.5⌋ < n := by
    rw [Int.floor_lt, Int.cast_natCast]
    rw [hcast] at hle ⊢
    linarith
  unfold rank
  omega

theorem rank_mono {q r : K} (hqr : q ≤ r) (n : ℕ) : rank q n ≤ rank r n := by
  have hle : q * ((n - 1 : ℕ) : K) ≤ r * ((n - 1 : ℕ) : K) :=
    mul_le_mul_of_nonneg_right hqr (Nat.cast_nonneg _)
  have hfloor : ⌊q * ((n - 1 : ℕ) : K) + 0.5⌋ ≤ ⌊r * ((n - 1 : ℕ) : K) + 0.5⌋ :=
    Int.floor_mono (by linarith)
  unfold rank
  omega

theorem rank_zero (n : ℕ) : rank (0 : K) n = 0 := by
  have hfloor : ⌊(0.5 : K)⌋ = 0 := by
    rw [Int.floor_eq_zero_iff]
    norm_num
  rw [rank, zero_mul, zero_add, hfloor]
  rfl

def quantile (q : K) (xs : List K) : K := nth xs (rank q xs.length)

/-- The quantile, but no more than `lift` above the least element. -/
def cappedQuantile (q lift : K) (xs : List K) : K := min (quantile q xs) (nth xs 0 + lift)

variable {q r lift : K} {xs : List K}

theorem rank_lt_length (hq : q ≤ 1) (hne : xs ≠ []) : rank q xs.length < xs.length :=
  rank_lt hq (List.length_pos_of_ne_nil hne)

theorem nth_zero_le_quantile (hq : q ≤ 1) (hne : xs ≠ []) : nth xs 0 ≤ quantile q xs :=
  nth_mono (Nat.zero_le _) (rank_lt_length hq hne)

theorem quantile_le_nth_last (hq : q ≤ 1) (hne : xs ≠ []) :
    quantile q xs ≤ nth xs (xs.length - 1) :=
  le_nth_last (nth_mem (rank_lt_length hq hne))

theorem quantile_mono (hqr : q ≤ r) (hr : r ≤ 1) (hne : xs ≠ []) : quantile q xs ≤ quantile r xs :=
  nth_mono (rank_mono hqr _) (rank_lt_length hr hne)

omit [IsStrictOrderedRing K] in
theorem quantile_of_perm {ys : List K} (hperm : xs.Perm ys) : quantile q xs = quantile q ys := by
  rw [quantile, quantile, hperm.length_eq, nth_of_perm hperm]

theorem quantile_zero (xs : List K) : quantile 0 xs = nth xs 0 := by
  rw [quantile, rank_zero]

omit [FloorRing K] in
theorem nth_map_add (c : K) {k : ℕ} (hk : k < xs.length) : nth (xs.map (· + c)) k = nth xs k + c :=
  nth_map (fun _ _ h => add_lt_add_left h c) hk

theorem quantile_map_add (hq : q ≤ 1) (hne : xs ≠ []) (c : K) :
    quantile q (xs.map (· + c)) = quantile q xs + c := by
  rw [quantile, List.length_map]
  exact nth_map_add c (rank_lt_length hq hne)

theorem nth_zero_le_cappedQuantile (hq : q ≤ 1) (hlift : 0 ≤ lift) (hne : xs ≠ []) :
    nth xs 0 ≤ cappedQuantile q lift xs :=
  le_min (nth_zero_le_quantile hq hne) (le_add_of_nonneg_right hlift)

theorem cappedQuantile_mono {lift' : K} (hqr : q ≤ r) (hr : r ≤ 1) (hlift : lift ≤ lift')
    (hne : xs ≠ []) : cappedQuantile q lift xs ≤ cappedQuantile r lift' xs := by
  have hcap : nth xs 0 + lift ≤ nth xs 0 + lift' := by linarith
  exact min_le_min (quantile_mono hqr hr hne) hcap

theorem cappedQuantile_map_add (hq : q ≤ 1) (hne : xs ≠ []) (c : K) :
    cappedQuantile q lift (xs.map (· + c)) = cappedQuantile q lift xs + c := by
  rw [cappedQuantile, quantile_map_add hq hne, nth_map_add c (List.length_pos_of_ne_nil hne),
    add_right_comm, min_add_add_right]
  rfl

theorem cappedQuantile_eq_nth_zero (hq : q ≤ 1) (hlift : 0 ≤ lift) (hne : xs ≠ [])
    (h : q = 0 ∨ lift = 0) : cappedQuantile q lift xs = nth xs 0 := by
  obtain rfl | rfl := h
  · rw [cappedQuantile, quantile_zero]
    exact min_eq_left (le_add_of_nonneg_right hlift)
  · rw [cappedQuantile, add_zero]
    exact min_eq_right (nth_zero_le_quantile hq hne)

end Quantile

end OrderStatistics
