import Mathlib.Algebra.Order.Group.Nat
import Mathlib.Data.Finset.Max
import Mathlib.Logic.Equiv.Basic
import Mathlib.Order.Interval.Finset.Nat
import Mathlib.Data.Fintype.EquivFin

/-!
# A bounded binary heap

The greatest element is at position 0. An element that is sifted is held beside the
array, whose position for it is the hole. The comparison need not be an order: it is
enough that it never contradicts a key.
-/

namespace RtkLocalization
namespace BinaryHeap

structure Heap (α : Type) where
  entries : ℕ → α
  size : ℕ
  cap : ℕ

section Operations
variable {α : Type} (lt : α → α → Bool)

def floatUp (entries : ℕ → α) (hole : ℕ) (e : α) : ℕ → α :=
  if _h : 0 < hole then
    if lt (entries ((hole - 1) / 2)) e then
      floatUp (Function.update entries hole (entries ((hole - 1) / 2))) ((hole - 1) / 2) e
    else Function.update entries hole e
  else Function.update entries hole e
termination_by hole
decreasing_by omega

/-- The son to compare with. -/
def son (size : ℕ) (entries : ℕ → α) (hole : ℕ) : ℕ :=
  if 2 * hole + 2 < size && lt (entries (2 * hole + 1)) (entries (2 * hole + 2)) then 2 * hole + 2
  else 2 * hole + 1

theorem son_range (size : ℕ) (entries : ℕ → α) (hole : ℕ) :
    hole < son lt size entries hole ∧ (son lt size entries hole - 1) / 2 = hole ∧
      (2 * hole + 1 < size → son lt size entries hole < size) := by
  unfold son
  split_ifs with h
  · rw [Bool.and_eq_true, decide_eq_true_iff] at h
    omega
  · omega

def moveDown (size : ℕ) (entries : ℕ → α) (hole : ℕ) (e : α) : ℕ → α :=
  if 2 * hole + 1 < size then
    if lt e (entries (son lt size entries hole)) then
      moveDown size (Function.update entries hole (entries (son lt size entries hole)))
        (son lt size entries hole) e
    else Function.update entries hole e
  else Function.update entries hole e
termination_by size - hole
decreasing_by
  have := (son_range lt size entries hole).1
  omega

def Heap.top (h : Heap α) : α := h.entries 0

def Heap.push (h : Heap α) (e : α) : Heap α :=
  if h.cap ≤ h.size then h
  else { h with entries := floatUp lt h.entries h.size e, size := h.size + 1 }

def Heap.pop (h : Heap α) : Heap α :=
  if h.size = 0 then h
  else
    { h with
      entries := moveDown lt (h.size - 1) h.entries 0 (h.entries (h.size - 1))
      size := h.size - 1 }

end Operations

section Contents
variable {α : Type}

def elements (size : ℕ) (f : ℕ → α) : Multiset α := (Multiset.range size).map f

def Heap.contents (h : Heap α) : Multiset α := elements h.size h.entries

theorem mem_elements {size : ℕ} {f : ℕ → α} {x : α} :
    x ∈ elements size f ↔ ∃ i < size, f i = x := by
  simp only [elements, Multiset.mem_map, Multiset.mem_range]

theorem elements_swap {size i j : ℕ} (f : ℕ → α) (hi : i < size) (hj : j < size) :
    elements size (f ∘ Equiv.swap i j) = elements size f := by
  have hperm : (Finset.range size).map (Equiv.swap i j).toEmbedding = Finset.range size := by
    refine Finset.map_perm fun k hk => ?_
    rw [Finset.mem_coe, Finset.mem_range]
    rcases Equiv.swap_apply_ne_self_iff.mp hk with ⟨-, rfl | rfl⟩
    · exact hi
    · exact hj
  have hval := congrArg Finset.val hperm
  rw [Finset.map_val, Finset.range_val] at hval
  rw [elements, ← Multiset.map_map]
  exact congrArg (Multiset.map f) hval

theorem elements_update_last (size : ℕ) (f : ℕ → α) (e : α) :
    elements (size + 1) (Function.update f size e) = e ::ₘ elements size f := by
  rw [elements, Multiset.range_succ, Multiset.map_cons, Function.update_self]
  refine congrArg _ (Multiset.map_congr rfl fun i hi => ?_)
  exact Function.update_of_ne (Multiset.mem_range.mp hi).ne e f

/-- The hole moves from `i` to `j`. -/
theorem fill_swap {i j : ℕ} (hij : i ≠ j) (entries : ℕ → α) (e : α) :
    Function.update (Function.update entries i (entries j)) j e
      = Function.update entries i e ∘ Equiv.swap i j := by
  funext k
  rw [Function.comp_apply]
  rcases eq_or_ne k i with rfl | hki
  · rw [Equiv.swap_apply_left, Function.update_of_ne hij, Function.update_self,
      Function.update_of_ne hij.symm]
  rcases eq_or_ne k j with rfl | hkj
  · rw [Equiv.swap_apply_right, Function.update_self, Function.update_self]
  · rw [Equiv.swap_apply_of_ne_of_ne hki hkj, Function.update_of_ne hkj, Function.update_of_ne hki,
      Function.update_of_ne hki]

end Contents

section Order
variable {α β : Type} [Preorder β] (lt : α → α → Bool) (key : α → β)

/-- On these elements the comparison does not contradict the key. -/
def Respects (P : α → Prop) : Prop :=
  ∀ a b, P a → P b → if lt a b then key a ≤ key b else key b ≤ key a

def Ordered (size : ℕ) (f : ℕ → α) : Prop :=
  ∀ i, 0 < i → i < size → key (f i) ≤ key (f ((i - 1) / 2))

/-- What the sifts need where the element may be out of place at `hole`: the others are in order,
and the sons of the hole are in order with its father. -/
structure UpOrder (size : ℕ) (f : ℕ → α) (hole : ℕ) : Prop where
  except : ∀ i, 0 < i → i < size → i ≠ hole → key (f i) ≤ key (f ((i - 1) / 2))
  grand : 0 < hole → ∀ i, 0 < i → i < size → (i - 1) / 2 = hole →
    key (f i) ≤ key (f ((hole - 1) / 2))

structure DownOrder (size : ℕ) (f : ℕ → α) (hole : ℕ) : Prop where
  except : ∀ i, 0 < i → i < size → (i - 1) / 2 ≠ hole → key (f i) ≤ key (f ((i - 1) / 2))
  grand : 0 < hole → ∀ i, 0 < i → i < size → (i - 1) / 2 = hole →
    key (f i) ≤ key (f ((hole - 1) / 2))

variable {lt key} {P : α → Prop}

theorem Respects.of_lt (h : Respects lt key P) {a b : α} (ha : P a) (hb : P b)
    (hlt : lt a b = true) : key a ≤ key b := by
  have := h a b ha hb
  rwa [if_pos hlt] at this

theorem Respects.of_not_lt (h : Respects lt key P) {a b : α} (ha : P a) (hb : P b)
    (hlt : ¬ lt a b = true) : key b ≤ key a := by
  have := h a b ha hb
  rwa [if_neg hlt] at this

theorem Ordered.le_top {size : ℕ} {f : ℕ → α} (h : Ordered key size f) :
    ∀ i < size, key (f i) ≤ key (f 0) := by
  intro i
  induction i using Nat.strong_induction_on with
  | _ i ih =>
    intro hi
    rcases Nat.eq_zero_or_pos i with rfl | hpos
    · exact le_rfl
    · exact (h i hpos hi).trans (ih ((i - 1) / 2) (by omega) (by omega))

theorem UpOrder.move {size : ℕ} {f : ℕ → α} {hole : ℕ} (h : UpOrder key size f hole)
    (hpos : 0 < hole) (hsize : hole < size) (hle : key (f ((hole - 1) / 2)) ≤ key (f hole)) :
    UpOrder key size (f ∘ Equiv.swap hole ((hole - 1) / 2)) ((hole - 1) / 2) := by
  have hfather : (hole - 1) / 2 ≠ hole := by omega
  generalize hp : (hole - 1) / 2 = p at *
  have hother {i : ℕ} (hi : i ≠ hole) (hi' : i ≠ p) : (f ∘ Equiv.swap hole p) i = f i :=
    congrArg f (Equiv.swap_apply_of_ne_of_ne hi hi')
  have hhole : (f ∘ Equiv.swap hole p) hole = f p := congrArg f (Equiv.swap_apply_left _ _)
  have hplace : (f ∘ Equiv.swap hole p) p = f hole := congrArg f (Equiv.swap_apply_right _ _)
  constructor
  · intro i hi hlt hne
    rcases eq_or_ne i hole with rfl | hih
    · rw [hhole, hp, hplace]
      exact hle
    rw [hother hih hne]
    have hexcept := h.except i hi hlt hih
    rcases eq_or_ne ((i - 1) / 2) hole with hson | hson
    · rw [hson, hhole, ← hp]
      exact h.grand hpos i hi hlt hson
    rcases eq_or_ne ((i - 1) / 2) p with hbrother | hbrother
    · rw [hbrother] at hexcept ⊢
      rw [hplace]
      exact hexcept.trans hle
    · rw [hother hson hbrother]
      exact hexcept
  · intro hp0 i hi hlt hson
    have hup : (p - 1) / 2 ≠ hole ∧ (p - 1) / 2 ≠ p := by omega
    have hgrand := h.except p hp0 (by omega) hfather
    rw [hother hup.1 hup.2]
    rcases eq_or_ne i hole with rfl | hih
    · rw [hhole]
      exact hgrand
    · rw [hother hih (by omega)]
      have hexcept := h.except i hi hlt hih
      rw [hson] at hexcept
      exact hexcept.trans hgrand

theorem UpOrder.finish {size : ℕ} {f : ℕ → α} {hole : ℕ} (h : UpOrder key size f hole)
    (hle : 0 < hole → key (f hole) ≤ key (f ((hole - 1) / 2))) : Ordered key size f := by
  intro i hi hlt
  rcases eq_or_ne i hole with rfl | hne
  · exact hle hi
  · exact h.except i hi hlt hne

theorem DownOrder.move {size : ℕ} {f : ℕ → α} {hole c : ℕ} (h : DownOrder key size f hole)
    (hc : hole < c) (hcsize : c < size) (hfather : (c - 1) / 2 = hole)
    (hle : ∀ i, 0 < i → i < size → (i - 1) / 2 = hole → key (f i) ≤ key (f c))
    (hdown : key (f hole) ≤ key (f c)) :
    DownOrder key size (f ∘ Equiv.swap hole c) c := by
  have hother {i : ℕ} (hi : i ≠ hole) (hi' : i ≠ c) : (f ∘ Equiv.swap hole c) i = f i :=
    congrArg f (Equiv.swap_apply_of_ne_of_ne hi hi')
  have hhole : (f ∘ Equiv.swap hole c) hole = f c := congrArg f (Equiv.swap_apply_left _ _)
  have hplace : (f ∘ Equiv.swap hole c) c = f hole := congrArg f (Equiv.swap_apply_right _ _)
  constructor
  · intro i hi hlt hne
    rcases eq_or_ne i c with rfl | hic
    · rw [hplace, hfather, hhole]
      exact hdown
    rcases eq_or_ne i hole with rfl | hih
    · rw [hhole, hother (by omega) hne]
      exact h.grand hi c (by omega) hcsize hfather
    rw [hother hih hic]
    rcases eq_or_ne ((i - 1) / 2) hole with hson | hson
    · rw [hson, hhole]
      exact hle i hi hlt hson
    · rw [hother hson hne]
      exact h.except i hi hlt hson
  · intro _ i hi hlt hson
    rw [hfather, hhole, hother (by omega) (by omega)]
    have hexcept := h.except i hi hlt (by omega)
    rwa [hson] at hexcept

theorem DownOrder.finish {size : ℕ} {f : ℕ → α} {hole : ℕ} (h : DownOrder key size f hole)
    (hle : ∀ i, 0 < i → i < size → (i - 1) / 2 = hole → key (f i) ≤ key (f hole)) :
    Ordered key size f := by
  intro i hi hlt
  rcases eq_or_ne ((i - 1) / 2) hole with hson | hson
  · rw [hson]
    exact hle i hi hlt hson
  · exact h.except i hi hlt hson

/-! ### The sifts -/

theorem floatUp_spec (hlt : Respects lt key P) {size : ℕ} {entries : ℕ → α} {hole : ℕ} {e : α}
    (hsize : hole < size) (hP : ∀ i < size, P (Function.update entries hole e i))
    (h : UpOrder key size (Function.update entries hole e) hole) :
    Ordered key size (floatUp lt entries hole e) ∧
      elements size (floatUp lt entries hole e)
        = elements size (Function.update entries hole e) := by
  fun_induction floatUp lt entries hole e with
  | case1 entries hole hpos hup ih =>
    have hfather : (hole - 1) / 2 < size := by omega
    have hne : hole ≠ (hole - 1) / 2 := by omega
    have hold : Function.update entries hole e ((hole - 1) / 2) = entries ((hole - 1) / 2) :=
      Function.update_of_ne hne.symm _ _
    rw [fill_swap hne] at ih
    have hle : key (Function.update entries hole e ((hole - 1) / 2))
        ≤ key (Function.update entries hole e hole) := by
      refine hlt.of_lt (hP _ hfather) (hP _ hsize) ?_
      rw [hold, Function.update_self]
      exact hup
    have hP' : ∀ i < size,
        P ((Function.update entries hole e ∘ Equiv.swap hole ((hole - 1) / 2)) i) := by
      intro i hi
      refine hP _ ?_
      rw [Equiv.swap_apply_def]
      split_ifs <;> omega
    obtain ⟨hordered, hsame⟩ := ih hfather hP' (h.move hpos hsize hle)
    exact ⟨hordered, hsame.trans (elements_swap _ hsize hfather)⟩
  | case2 entries hole hpos hstop =>
    refine ⟨h.finish fun _ => ?_, rfl⟩
    have hfather : (hole - 1) / 2 < size := by omega
    refine hlt.of_not_lt (hP _ hfather) (hP _ hsize) ?_
    rw [Function.update_of_ne (by omega : (hole - 1) / 2 ≠ hole), Function.update_self]
    exact hstop
  | case3 entries hole hzero => exact ⟨h.finish fun hpos => absurd hpos hzero, rfl⟩

theorem le_son (hlt : Respects lt key P) {size : ℕ} {f : ℕ → α} {hole : ℕ}
    (hson : 2 * hole + 1 < size) (hP : ∀ i < size, hole < i → P (f i)) :
    ∀ i, 0 < i → i < size → (i - 1) / 2 = hole → key (f i) ≤ key (f (son lt size f hole)) := by
  intro i hi hsize hi'
  have hcases : i = 2 * hole + 1 ∨ i = 2 * hole + 2 := by omega
  unfold son
  split_ifs with h
  · rw [Bool.and_eq_true, decide_eq_true_iff] at h
    rcases hcases with rfl | rfl
    · exact hlt.of_lt (hP _ hsize (by omega)) (hP _ h.1 (by omega)) h.2
    · exact le_rfl
  · rw [Bool.and_eq_true, decide_eq_true_iff, not_and] at h
    rcases hcases with rfl | rfl
    · exact le_rfl
    · exact hlt.of_not_lt (hP _ hson (by omega)) (hP _ hsize (by omega)) (h hsize)

theorem moveDown_spec (hlt : Respects lt key P) {size : ℕ} {entries : ℕ → α} {hole : ℕ} {e : α}
    (hsize : hole < size) (hP : ∀ i < size, P (Function.update entries hole e i))
    (h : DownOrder key size (Function.update entries hole e) hole) :
    Ordered key size (moveDown lt size entries hole e) ∧
      elements size (moveDown lt size entries hole e)
        = elements size (Function.update entries hole e) := by
  fun_induction moveDown lt size entries hole e with
  | case1 entries hole hson hdown ih =>
    obtain ⟨hgt, hfather, hin⟩ := son_range lt size entries hole
    have hgreatest := le_son hlt hson fun i hi hgt => by
      have := hP i hi
      rwa [Function.update_of_ne (by omega)] at this
    generalize son lt size entries hole = c at *
    have hold : Function.update entries hole e c = entries c :=
      Function.update_of_ne (by omega) _ _
    rw [fill_swap (by omega)] at ih
    have hle : key (Function.update entries hole e hole) ≤ key (Function.update entries hole e c) := by
      refine hlt.of_lt (hP _ hsize) (hP _ (hin hson)) ?_
      rw [hold, Function.update_self]
      exact hdown
    have hP' : ∀ i < size, P ((Function.update entries hole e ∘ Equiv.swap hole c) i) := by
      intro i hi
      refine hP _ ?_
      rw [Equiv.swap_apply_def]
      split_ifs <;> omega
    have hsons : ∀ i, 0 < i → i < size → (i - 1) / 2 = hole →
        key (Function.update entries hole e i) ≤ key (Function.update entries hole e c) := by
      intro i hi hlt hi'
      rw [hold, Function.update_of_ne (by omega)]
      exact hgreatest i hi hlt hi'
    obtain ⟨hordered, hsame⟩ := ih (hin hson) hP' (h.move hgt (hin hson) hfather hsons hle)
    exact ⟨hordered, hsame.trans (elements_swap _ hsize (hin hson))⟩
  | case2 entries hole hson hstop =>
    refine ⟨h.finish fun i hi hi' hi'' => ?_, rfl⟩
    have hgt := (son_range lt size entries hole).1
    have hin := (son_range lt size entries hole).2.2 hson
    have hgreatest := le_son hlt hson fun i hi hgt => by
      have := hP i hi
      rwa [Function.update_of_ne (by omega)] at this
    rw [Function.update_self, Function.update_of_ne (by omega)]
    refine (hgreatest i hi hi' hi'').trans ?_
    have hPson := hP _ hin
    have hPhole := hP _ hsize
    rw [Function.update_of_ne (by omega)] at hPson
    rw [Function.update_self] at hPhole
    exact hlt.of_not_lt hPhole hPson hstop
  | case3 entries hole hleaf =>
    exact ⟨h.finish fun i hi hi' hi'' => absurd hi' (by omega), rfl⟩

/-! ### The operations -/

theorem Heap.push_spec (hlt : Respects lt key P) {h : Heap α} (hcap : h.size < h.cap)
    (hP : ∀ x ∈ h.contents, P x) (hordered : Ordered key h.size h.entries) {e : α} (he : P e) :
    Ordered key (h.push lt e).size (h.push lt e).entries ∧
      (h.push lt e).contents = e ::ₘ h.contents ∧ (h.push lt e).size = h.size + 1 ∧
      (h.push lt e).cap = h.cap := by
  have hpush : h.push lt e
      = { h with entries := floatUp lt h.entries h.size e, size := h.size + 1 } :=
    if_neg (not_le.mpr hcap)
  have hold {i : ℕ} (hi : i < h.size) :
      Function.update h.entries h.size e i = h.entries i := Function.update_of_ne hi.ne _ _
  have hup : UpOrder key (h.size + 1) (Function.update h.entries h.size e) h.size := by
    constructor
    · intro i hi hlt hne
      rw [hold (by omega), hold (by omega)]
      exact hordered i hi (by omega)
    · intro _ i hi hlt hson
      omega
  have hP' : ∀ i < h.size + 1, P (Function.update h.entries h.size e i) := by
    intro i hi
    rcases Nat.lt_succ_iff_lt_or_eq.mp hi with hi | rfl
    · rw [hold hi]
      exact hP _ (mem_elements.mpr ⟨i, hi, rfl⟩)
    · rw [Function.update_self]
      exact he
  obtain ⟨hresult, hsame⟩ := floatUp_spec hlt (Nat.lt_succ_self h.size) hP' hup
  rw [hpush]
  exact ⟨hresult, hsame.trans (elements_update_last _ _ _), rfl, rfl⟩

theorem Heap.pop_spec (hlt : Respects lt key P) {h : Heap α} (hsize : 0 < h.size)
    (hP : ∀ x ∈ h.contents, P x) (hordered : Ordered key h.size h.entries) :
    Ordered key (h.pop lt).size (h.pop lt).entries ∧
      h.contents = h.top ::ₘ (h.pop lt).contents ∧ (h.pop lt).size = h.size - 1 ∧
      (h.pop lt).cap = h.cap := by
  have hpop : h.pop lt
      = { h with
          entries := moveDown lt (h.size - 1) h.entries 0 (h.entries (h.size - 1))
          size := h.size - 1 } := if_neg hsize.ne'
  rw [hpop]
  have hPi {i : ℕ} (hi : i < h.size) : P (h.entries i) := hP _ (mem_elements.mpr ⟨i, hi, rfl⟩)
  obtain ⟨n, hn⟩ : ∃ n, h.size = n + 1 := ⟨h.size - 1, by omega⟩
  rw [hn, Nat.add_sub_cancel]
  rw [hn] at hordered
  rcases Nat.eq_zero_or_pos n with rfl | hpos
  · refine ⟨fun i hi hlt => absurd hlt (Nat.not_lt_zero i), ?_, rfl, rfl⟩
    rw [Heap.contents, hn]
    rfl
  -- The hole is at the top, and the last element, which goes there, leaves its place.
  have hdown : DownOrder key n (Function.update h.entries 0 (h.entries n)) 0 := by
    constructor
    · intro i hi hlt hne
      rw [Function.update_of_ne hi.ne', Function.update_of_ne hne]
      exact hordered i hi (by omega)
    · intro hzero
      exact absurd hzero (lt_irrefl 0)
  have hP' : ∀ i < n, P (Function.update h.entries 0 (h.entries n) i) := by
    intro i hi
    rcases Nat.eq_zero_or_pos i with rfl | hi0
    · rw [Function.update_self]
      exact hPi (by omega)
    · rw [Function.update_of_ne hi0.ne']
      exact hPi (by omega)
  obtain ⟨hresult, hsame⟩ := moveDown_spec hlt hpos hP' hdown
  refine ⟨hresult, ?_, rfl, rfl⟩
  have hswap : elements (n + 1) (Function.update (Function.update h.entries 0 (h.entries n)) n
      (h.entries 0)) = elements (n + 1) h.entries := by
    rw [fill_swap hpos.ne, Function.update_eq_self]
    exact elements_swap _ (by omega) (by omega)
  rw [elements_update_last] at hswap
  change elements h.size h.entries = h.entries 0 ::ₘ elements n _
  rw [hn, hsame, hswap]

theorem Heap.le_top {h : Heap α} (hordered : Ordered key h.size h.entries) :
    ∀ x ∈ h.contents, key x ≤ key h.top := by
  intro x hx
  obtain ⟨i, hi, rfl⟩ := mem_elements.mp hx
  exact hordered.le_top i hi

theorem Heap.card_contents (h : Heap α) : h.contents.card = h.size := by
  rw [Heap.contents, elements, Multiset.card_map, Multiset.card_range]

end Order
end BinaryHeap
end RtkLocalization
