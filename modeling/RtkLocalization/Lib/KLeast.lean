import Mathlib.Data.Multiset.AddSub
import Mathlib.Algebra.Order.Group.Multiset
import Mathlib.Order.Lattice

/-!
# The `k` least elements of a multiset

`KLeast key k M N`: `N` holds `k` elements of `M`, or all where there are fewer, and none that is
left out has a lesser key. It can be found piece by piece (`KLeast.trans`).
-/

namespace RtkLocalization

variable {α β : Type} [LinearOrder β] {key : α → β} {k : ℕ}

structure KLeast (key : α → β) (k : ℕ) (M N : Multiset α) : Prop where
  card : N.card = min k M.card
  rest : ∃ R, M = N + R ∧ ∀ x ∈ N, ∀ y ∈ R, key x ≤ key y

namespace KLeast

theorem refl {M : Multiset α} (h : M.card ≤ k) : KLeast key k M M where
  card := (min_eq_right h).symm
  rest := ⟨0, (add_zero M).symm, fun _ _ _ hy => absurd hy (Multiset.notMem_zero _)⟩

/-- No better element to come. -/
theorem prune {N A : Multiset α} (hN : N.card = k) (h : ∀ x ∈ N, ∀ y ∈ A, key x ≤ key y) :
    KLeast key k (N + A) N where
  card := by
    rw [Multiset.card_add, hN]
    omega
  rest := ⟨A, rfl, h⟩

/-- A greatest element goes for a better one. -/
theorem replace {N : Multiset α} {top x : α} (hN : N.card + 1 = k)
    (htop : ∀ y ∈ N, key y ≤ key top) (hx : key x ≤ key top) :
    KLeast key k (x ::ₘ top ::ₘ N) (x ::ₘ N) where
  card := by
    rw [Multiset.card_cons, Multiset.card_cons, Multiset.card_cons]
    omega
  rest := by
    refine ⟨{top}, ?_, ?_⟩
    · rw [Multiset.cons_swap, Multiset.add_comm, Multiset.singleton_add]
    · intro y hy z hz
      rw [Multiset.mem_singleton.mp hz]
      rcases Multiset.mem_cons.mp hy with rfl | hy
      · exact hx
      · exact htop y hy

theorem trans {M N A N' : Multiset α} (h : KLeast key k M N) (h' : KLeast key k (N + A) N') :
    KLeast key k (M + A) N' := by
  classical
  obtain ⟨hcard, R, hR, hleast⟩ := h
  obtain ⟨hcard', R', hR', hleast'⟩ := h'
  have hMcard := congrArg Multiset.card hR
  have hsplit := congrArg Multiset.card hR'
  rw [Multiset.card_add] at hMcard hsplit hcard'
  refine ⟨?_, R' + R, ?_, ?_⟩
  · rw [Multiset.card_add]
    omega
  · rw [hR, add_right_comm, hR', add_assoc]
  intro x hx y hy
  rcases Multiset.mem_add.mp hy with hy | hy
  · exact hleast' x hx y hy
  -- Something was left out before, so `N` and `N'` are both full.
  have hfull : N'.card = N.card := by
    have := Multiset.card_pos_iff_exists_mem.mpr ⟨y, hy⟩
    omega
  by_cases hsub : N ≤ N'
  · rw [← Multiset.eq_of_le_of_card_le hsub hfull.le] at hx
    exact hleast x hx y hy
  · obtain ⟨z, hz⟩ : ∃ z, N'.count z < N.count z := by
      rw [Multiset.le_iff_count] at hsub
      push Not at hsub
      exact hsub
    have hcount := congrArg (Multiset.count z) hR'
    rw [Multiset.count_add, Multiset.count_add] at hcount
    have hzN : z ∈ N := Multiset.count_pos.mp (by omega)
    have hzR : z ∈ R' := Multiset.count_pos.mp (by omega)
    exact (hleast' x hx z hzR).trans (hleast z hzN y hy)

end KLeast
end RtkLocalization
