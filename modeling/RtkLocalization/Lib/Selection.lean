import RtkLocalization.Lib.PyFloat
import Mathlib.Data.List.Induction
import Mathlib.Data.List.Sort

/-!
# Minima and order statistics of a list

Running minima, the first element of least key, and values taken from a sorted
list, with what remains of each when the list is permuted. Keys are compared by a
strict order that need not be total: `PyFloat` has NaN, which compares with
nothing.
-/

namespace Selection
variable {ι κ : Type} [LT κ]

/-! ### The first element of least key -/

/-- `p` has the least key, and of the elements with this key it comes first. -/
def FirstLeast (key : ι → κ) (p : ι) (xs : List ι) : Prop :=
  ∃ before after, xs = before ++ p :: after ∧ (∀ q ∈ before, key p < key q) ∧
    ∀ q ∈ after, ¬ key q < key p

/-- `p` has the least key; this does not see the order of the list. -/
def Least (key : ι → κ) (p : ι) (xs : List ι) : Prop :=
  p ∈ xs ∧ ∀ q ∈ xs, ¬ key q < key p

theorem Least.of_perm {key : ι → κ} {p : ι} {xs ys : List ι} (h : Least key p xs)
    (hperm : xs.Perm ys) : Least key p ys :=
  ⟨hperm.mem_iff.mp h.1, fun q hq => h.2 q (hperm.mem_iff.mpr hq)⟩

theorem FirstLeast.least [IsStrictOrder κ (· < ·)] {key : ι → κ} {p : ι} {xs : List ι}
    (h : FirstLeast key p xs) : Least key p xs := by
  obtain ⟨before, after, rfl, hbefore, hafter⟩ := h
  refine ⟨by simp, ?_⟩
  intro q hq
  rw [List.mem_append, List.mem_cons] at hq
  obtain hq | rfl | hq := hq
  · exact asymm (hbefore q hq)
  · exact irrefl (key q)
  · exact hafter q hq

/-- The elements that satisfy `b`, then the others. -/
def front (b : ι → Bool) (xs : List ι) : List ι := xs.filter b ++ xs.filter fun x => !b x

theorem front_perm (b : ι → Bool) (xs : List ι) : (front b xs).Perm xs :=
  List.filter_append_perm b xs

theorem filter_front (b keep : ι → Bool) (xs : List ι) :
    (front b xs).filter keep = front b (xs.filter keep) := by
  simp only [front, List.filter_append, List.filter_filter, Bool.and_comm]

/-- Moved to the front, an element of least key that satisfies `b` comes before the
others. -/
theorem FirstLeast.front {key : ι → κ} {b : ι → Bool} {p q : ι} {xs : List ι}
    (h : FirstLeast key p (front b xs)) (hq : q ∈ xs) (hb : b q = true)
    (hle : ¬ key p < key q) : b p = true := by
  obtain ⟨before, after, hsplit, hbefore, -⟩ := h
  have hfirst : q ∈ xs.filter b := List.mem_filter.mpr ⟨hq, hb⟩
  obtain ⟨gap, hgap, -⟩ | ⟨gap, hgap, hrest⟩ := List.append_eq_append_iff.mp hsplit
  · exact absurd (hbefore q (by simp [hgap, hfirst])) hle
  · cases gap with
    | nil =>
      rw [List.append_nil] at hgap
      exact absurd (hbefore q (hgap ▸ hfirst)) hle
    | cons r gap =>
      obtain ⟨rfl, -⟩ := List.cons.inj hrest
      have hmem : p ∈ xs.filter b := by simp [hgap]
      exact (List.mem_filter.mp hmem).2

variable [DecidableLT κ]

/-- One turn of the loop that keeps the first least element with its key. -/
def keepFirst (key : ι → κ) (best : κ × ι) (p : ι) : κ × ι :=
  if key p < best.1 then (key p, p) else best

theorem foldl_keepFirst_mem (key : ι → κ) (best : κ × ι) (xs : List ι) :
    xs.foldl (keepFirst key) best = best ∨
      ∃ q ∈ xs, xs.foldl (keepFirst key) best = (key q, q) := by
  induction xs generalizing best with
  | nil => exact Or.inl rfl
  | cons p xs ih =>
    rw [List.foldl_cons]
    obtain hbest | ⟨q, hq, hres⟩ := ih (keepFirst key best p)
    · rw [hbest, keepFirst]
      split_ifs
      · exact Or.inr ⟨p, List.mem_cons_self, rfl⟩
      · exact Or.inl rfl
    · exact Or.inr ⟨q, List.mem_cons_of_mem p hq, hres⟩

theorem foldl_keepFirst_of_not_lt {key : ι → κ} {best : κ × ι} {xs : List ι}
    (h : ∀ q ∈ xs, ¬ key q < best.1) : xs.foldl (keepFirst key) best = best := by
  induction xs with
  | nil => rfl
  | cons p xs ih =>
    have hp : keepFirst key best p = best := if_neg (h p List.mem_cons_self)
    rw [List.foldl_cons, hp]
    exact ih fun q hq => h q (List.mem_cons_of_mem p hq)

theorem foldl_keepFirst_of_firstLeast {key : ι → κ} {best : κ × ι} {p : ι} {xs : List ι}
    (h : FirstLeast key p xs) (hp : key p < best.1) :
    xs.foldl (keepFirst key) best = (key p, p) := by
  obtain ⟨before, after, rfl, hbefore, hafter⟩ := h
  rw [List.foldl_append, List.foldl_cons]
  have hlt : key p < (before.foldl (keepFirst key) best).1 := by
    obtain hbest | ⟨q, hq, hres⟩ := foldl_keepFirst_mem key best before
    · rw [hbest]
      exact hp
    · rw [hres]
      exact hbefore q hq
  have hstep : keepFirst key (before.foldl (keepFirst key) best) p = (key p, p) := if_pos hlt
  rw [hstep]
  exact foldl_keepFirst_of_not_lt hafter

/-- Over a linear order the loop ends with an element of least key. -/
theorem foldl_keepFirst_least {ι κ : Type} [LinearOrder κ] (key : ι → κ) (p : ι) (xs : List ι) :
    (xs.foldl (keepFirst key) (key p, p)).1 = key (xs.foldl (keepFirst key) (key p, p)).2 ∧
      Least key (xs.foldl (keepFirst key) (key p, p)).2 (p :: xs) := by
  induction xs using List.reverseRecOn with
  | nil => exact ⟨rfl, List.mem_singleton_self p, fun q hq => by simp [List.mem_singleton.mp hq]⟩
  | append_singleton xs r ih =>
    obtain ⟨hkey, hmem, hleast⟩ := ih
    rw [List.foldl_append, List.foldl_cons, List.foldl_nil, ← List.cons_append]
    generalize xs.foldl (keepFirst key) (key p, p) = best at hkey hmem hleast
    unfold keepFirst
    split_ifs with hlt
    · refine ⟨rfl, List.mem_append_right _ (List.mem_singleton_self r), fun q hq => ?_⟩
      rcases List.mem_append.mp hq with hq | hq
      · exact not_lt.mpr ((hlt.trans_eq hkey).le.trans (not_lt.mp (hleast q hq)))
      · rw [List.mem_singleton.mp hq]
        exact lt_irrefl _
    · refine ⟨hkey, List.mem_append_left _ hmem, fun q hq => ?_⟩
      rcases List.mem_append.mp hq with hq | hq
      · exact hleast q hq
      · rw [List.mem_singleton.mp hq, ← hkey]
        exact hlt

/-! ### Running minimum -/

/-- `m` is the least of `init` and the members of `rs`. -/
structure IsLeastOf (init : κ) (rs : List κ) (m : κ) : Prop where
  mem : m = init ∨ m ∈ rs
  init_not_lt : ¬ init < m
  not_lt : ∀ r ∈ rs, ¬ r < m

theorem isLeastOf_foldl [IsStrictOrder κ (· < ·)] (init : κ) (rs : List κ) :
    IsLeastOf init rs (rs.foldl pyMin init) := by
  induction rs using List.reverseRecOn with
  | nil => exact ⟨Or.inl rfl, irrefl init, nofun⟩
  | append_singleton rs r ih =>
    rw [List.foldl_append, List.foldl_cons, List.foldl_nil]
    generalize rs.foldl pyMin init = m at ih
    unfold pyMin
    split_ifs with hr
    · refine ⟨Or.inr (by simp), fun h => ih.init_not_lt (IsTrans.trans _ _ _ h hr), ?_⟩
      intro q hq
      obtain hq | hq := List.mem_append.mp hq
      · exact fun h => ih.not_lt q hq (IsTrans.trans _ _ _ h hr)
      · rw [List.mem_singleton.mp hq]
        exact irrefl r
    · refine ⟨ih.mem.imp_right (List.mem_append_left _), ih.init_not_lt, ?_⟩
      intro q hq
      obtain hq | hq := List.mem_append.mp hq
      · exact ih.not_lt q hq
      · rw [List.mem_singleton.mp hq]
        exact hr

/-! ### Sorting -/

section Sorting
variable {α : Type} {le : α → α → Bool} {P : α → Prop}

theorem pairwise_mergeSort_on
    (trans : ∀ a b c, P a → P b → P c → le a b = true → le b c = true → le a c = true)
    (total : ∀ a b, P a → P b → (le a b || le b a) = true) {xs : List α} (hxs : ∀ a ∈ xs, P a) :
    (xs.mergeSort le).Pairwise (le · · = true) := by
  have hmap : (xs.attachWith P hxs).map Subtype.val = xs := by simp
  have hsort : ((xs.attachWith P hxs).mergeSort fun a b => le a.1 b.1).map Subtype.val
      = xs.mergeSort le := by
    rw [List.map_mergeSort (s := le) fun a _ b _ => rfl, hmap]
  rw [← hsort, List.pairwise_map]
  exact List.pairwise_mergeSort (fun a b c => trans a.1 b.1 c.1 a.2 b.2 c.2)
    (fun a b => total a.1 b.1 a.2 b.2) _

/-- Sorting forgets the order, also for an order that is total only on the
members of the list. -/
theorem mergeSort_eq_of_perm
    (trans : ∀ a b c, P a → P b → P c → le a b = true → le b c = true → le a c = true)
    (total : ∀ a b, P a → P b → (le a b || le b a) = true)
    (antisymm : ∀ a b, P a → P b → le a b = true → le b a = true → a = b) {xs ys : List α}
    (hperm : xs.Perm ys) (hxs : ∀ a ∈ xs, P a) : xs.mergeSort le = ys.mergeSort le := by
  have hys : ∀ a ∈ ys, P a := fun a ha => hxs a (hperm.mem_iff.mpr ha)
  have hsorted : (xs.mergeSort le).Perm (ys.mergeSort le) :=
    (List.mergeSort_perm xs le).trans (hperm.trans (List.mergeSort_perm ys le).symm)
  refine hsorted.eq_of_pairwise ?_ (pairwise_mergeSort_on trans total hxs)
    (pairwise_mergeSort_on trans total hys)
  intro a b ha hb
  exact antisymm a b (hxs a (List.mem_mergeSort.mp ha)) (hys b (List.mem_mergeSort.mp hb))

end Sorting

/-! ### Floats -/

section Floats
variable {K : Type} [LinearOrder K]
open PyFloat

/-- The place of a float on the line with two ends. NaN, which has none, is put at the
lower end. -/
def line : PyFloat K → WithBot (WithTop K)
  | fin x => ((x : WithTop K) : WithBot (WithTop K))
  | inf => ((⊤ : WithTop K) : WithBot (WithTop K))
  | neginf => ⊥
  | nan => ⊥

theorem ne_nan_of_lt {a b : PyFloat K} (h : a < b) : a ≠ nan ∧ b ≠ nan := by
  constructor
  · intro hnan
    rw [hnan] at h
    exact not_nan_lt b h
  · intro hnan
    rw [hnan] at h
    exact not_lt_nan a h

theorem ne_nan_of_le {a b : PyFloat K} (h : a ≤ b) : a ≠ nan ∧ b ≠ nan := by
  constructor
  · intro hnan
    rw [hnan] at h
    exact not_nan_le b h
  · intro hnan
    rw [hnan] at h
    exact not_le_nan a h

theorem lt_iff_line {a b : PyFloat K} (ha : a ≠ nan) (hb : b ≠ nan) : a < b ↔ line a < line b := by
  cases a <;> cases b <;> simp_all [lt_iff, ltb, line]
  exact WithBot.coe_lt_coe.mpr (WithTop.coe_lt_top _)

theorem le_iff_not_lt {a b : PyFloat K} (ha : a ≠ nan) (hb : b ≠ nan) : a ≤ b ↔ ¬ b < a := by
  cases a <;> cases b <;> simp_all [lt_iff, ltb, le_iff, leb]

theorem le_iff_line {a b : PyFloat K} (ha : a ≠ nan) (hb : b ≠ nan) : a ≤ b ↔ line a ≤ line b := by
  rw [le_iff_not_lt ha hb, lt_iff_line hb ha, not_lt]

theorem eq_of_line {a b : PyFloat K} (ha : a ≠ nan) (hb : b ≠ nan) (h : line a = line b) :
    a = b := by
  cases a <;> cases b <;> simp_all [line]

instance : IsStrictOrder (PyFloat K) (· < ·) where
  irrefl a h := by
    obtain ⟨ha, -⟩ := ne_nan_of_lt h
    exact lt_irrefl (line a) ((lt_iff_line ha ha).mp h)
  trans a b c hab hbc := by
    obtain ⟨ha, hb⟩ := ne_nan_of_lt hab
    obtain ⟨-, hc⟩ := ne_nan_of_lt hbc
    exact (lt_iff_line ha hc).mpr
      (((lt_iff_line ha hb).mp hab).trans ((lt_iff_line hb hc).mp hbc))

instance : IsTrans (PyFloat K) (· ≤ ·) where
  trans a b c hab hbc := by
    obtain ⟨ha, hb⟩ := ne_nan_of_le hab
    obtain ⟨-, hc⟩ := ne_nan_of_le hbc
    exact (le_iff_line ha hc).mpr
      (((le_iff_line ha hb).mp hab).trans ((le_iff_line hb hc).mp hbc))

theorem lt_of_lt_of_not_lt {a b c : PyFloat K} (hb : b ≠ nan) (hc : c ≠ nan) (hab : a < b)
    (hcb : ¬ c < b) : a < c := by
  obtain ⟨ha, -⟩ := ne_nan_of_lt hab
  rw [lt_iff_line hc hb, not_lt] at hcb
  exact (lt_iff_line ha hc).mpr (((lt_iff_line ha hb).mp hab).trans_le hcb)

theorem eq_of_not_lt {a b : PyFloat K} (ha : a ≠ nan) (hb : b ≠ nan) (hab : ¬ a < b)
    (hba : ¬ b < a) : a = b := by
  rw [lt_iff_line ha hb, not_lt] at hab
  rw [lt_iff_line hb ha, not_lt] at hba
  exact eq_of_line ha hb (le_antisymm hba hab)

theorem foldl_pyMin_ne_nan {init : PyFloat K} {rs : List (PyFloat K)} (hinit : init ≠ nan)
    (hrs : ∀ r ∈ rs, r ≠ nan) : rs.foldl pyMin init ≠ nan := by
  obtain hmem | hmem := (isLeastOf_foldl init rs).mem
  · rw [hmem]
    exact hinit
  · exact hrs _ hmem

theorem not_foldl_pyMin_lt {init m : PyFloat K} {rs : List (PyFloat K)} (hinit : ¬ init < m)
    (hrs : ∀ r ∈ rs, ¬ r < m) : ¬ rs.foldl pyMin init < m := by
  obtain hmem | hmem := (isLeastOf_foldl init rs).mem
  · rw [hmem]
    exact hinit
  · exact hrs _ hmem

theorem foldl_pyMin_le_iff {init r : PyFloat K} {rs : List (PyFloat K)} (hrs : ∀ s ∈ rs, s ≠ nan)
    (hr : r < init) : rs.foldl pyMin init ≤ r ↔ ∃ s ∈ rs, s ≤ r := by
  have hleast := isLeastOf_foldl init rs
  obtain ⟨hrnan, hinit⟩ := ne_nan_of_lt hr
  have hmin : rs.foldl pyMin init ≠ nan := foldl_pyMin_ne_nan hinit hrs
  refine ⟨fun h => ?_, fun h => ?_⟩
  · obtain hmem | hmem := hleast.mem
    · rw [hmem] at h
      exact absurd hr ((le_iff_not_lt hinit hrnan).mp h)
    · exact ⟨_, hmem, h⟩
  · obtain ⟨s, hs, hle⟩ := h
    have hfirst := (le_iff_not_lt hmin (hrs s hs)).mpr (hleast.not_lt s hs)
    exact IsTrans.trans _ _ _ hfirst hle

theorem foldl_pyMin_le_of_subset {init : PyFloat K} {rs ss : List (PyFloat K)} (hinit : init ≠ nan)
    (hrs : ∀ r ∈ rs, r ≠ nan) (hsub : ss ⊆ rs) : rs.foldl pyMin init ≤ ss.foldl pyMin init := by
  have hleast := isLeastOf_foldl init rs
  have hss : ∀ s ∈ ss, s ≠ nan := fun s hs => hrs s (hsub hs)
  rw [le_iff_not_lt (foldl_pyMin_ne_nan hinit hrs) (foldl_pyMin_ne_nan hinit hss)]
  exact not_foldl_pyMin_lt hleast.init_not_lt fun s hs => hleast.not_lt s (hsub hs)

/-- Two minima agree when no value of one list undercuts the other list. -/
theorem foldl_pyMin_congr {init : PyFloat K} {rs ss : List (PyFloat K)}
    (hrs : ∀ r ∈ rs, r ≠ nan) (hss : ∀ s ∈ ss, s ≠ nan)
    (hleft : ∀ r ∈ rs, ¬ r < init ∨ ∃ s ∈ ss, ¬ r < s)
    (hright : ∀ s ∈ ss, ¬ s < init ∨ ∃ r ∈ rs, ¬ s < r) :
    rs.foldl pyMin init = ss.foldl pyMin init := by
  by_cases hnan : init = nan
  · have hkeep : ∀ ts : List (PyFloat K), ts.foldl pyMin nan = nan := by
      intro ts
      induction ts with
      | nil => rfl
      | cons t ts ih =>
        have hstep : pyMin nan t = nan := if_neg (not_lt_nan t)
        rw [List.foldl_cons, hstep]
        exact ih
    rw [hnan, hkeep, hkeep]
  · have hhalf : ∀ us vs : List (PyFloat K), (∀ v ∈ vs, v ≠ nan) →
        (∀ u ∈ us, ¬ u < init ∨ ∃ v ∈ vs, ¬ u < v) →
        ¬ us.foldl pyMin init < vs.foldl pyMin init := by
      intro us vs hvs hcover
      have hleast := isLeastOf_foldl init vs
      have hne := foldl_pyMin_ne_nan hnan hvs
      apply not_foldl_pyMin_lt hleast.init_not_lt
      intro u hu hlt
      obtain hinit | ⟨v, hv, huv⟩ := hcover u hu
      · exact hinit (lt_of_lt_of_not_lt hne hnan hlt hleast.init_not_lt)
      · exact huv (lt_of_lt_of_not_lt hne (hvs v hv) hlt (hleast.not_lt v hv))
    exact eq_of_not_lt (foldl_pyMin_ne_nan hnan hrs) (foldl_pyMin_ne_nan hnan hss)
      (hhalf rs ss hss hleft) (hhalf ss rs hrs hright)

theorem foldl_pyMin_of_perm {rs ss : List (PyFloat K)} (hperm : rs.Perm ss)
    (hnan : ∀ r ∈ rs, r ≠ nan) (init : PyFloat K) : rs.foldl pyMin init = ss.foldl pyMin init := by
  have hss : ∀ s ∈ ss, s ≠ nan := fun s hs => hnan s (hperm.mem_iff.mpr hs)
  refine foldl_pyMin_congr hnan hss (fun r hr => Or.inr ⟨r, hperm.mem_iff.mp hr, ?_⟩)
    fun s hs => Or.inr ⟨s, hperm.mem_iff.mpr hs, ?_⟩
  · exact irrefl r
  · exact irrefl s

theorem exists_firstLeast {key : ι → PyFloat K} {xs : List ι} (hne : xs ≠ [])
    (hnan : ∀ q ∈ xs, key q ≠ nan) : ∃ p, FirstLeast key p xs := by
  induction xs using List.reverseRecOn with
  | nil => exact absurd rfl hne
  | append_singleton xs x ih =>
    have hx : key x ≠ nan := hnan x (by simp)
    by_cases hxs : xs = []
    · subst hxs
      exact ⟨x, [], [], rfl, nofun, nofun⟩
    · obtain ⟨p, before, after, hsplit, hbefore, hafter⟩ :=
        ih hxs fun q hq => hnan q (List.mem_append_left _ hq)
      have hmem : ∀ q ∈ xs, key q ≠ nan := fun q hq => hnan q (List.mem_append_left _ hq)
      have hp : key p ≠ nan := hmem p (by simp [hsplit])
      by_cases hlt : key x < key p
      · refine ⟨x, xs, [], rfl, ?_, nofun⟩
        intro q hq
        have hq' := hq
        rw [hsplit, List.mem_append, List.mem_cons] at hq'
        obtain hq' | rfl | hq' := hq'
        · exact IsTrans.trans _ _ _ hlt (hbefore q hq')
        · exact hlt
        · exact lt_of_lt_of_not_lt hp (hmem q hq) hlt (hafter q hq')
      · refine ⟨p, before, after ++ [x], by simp [hsplit], hbefore, ?_⟩
        intro q hq
        obtain hq | hq := List.mem_append.mp hq
        · exact hafter q hq
        · rw [List.mem_singleton.mp hq]
          exact hlt

/-- The order `std::sort` uses: `a` may stand before `b` unless `b < a`. -/
def notAfter (a b : PyFloat K) : Bool := !decide (b < a)

theorem notAfter_iff {a b : PyFloat K} (ha : a ≠ nan) (hb : b ≠ nan) :
    notAfter a b = true ↔ line a ≤ line b := by
  rw [notAfter, Bool.not_eq_true', decide_eq_false_iff_not, ← le_iff_not_lt ha hb,
    le_iff_line ha hb]

theorem mergeSort_notAfter_of_perm {xs ys : List (PyFloat K)} (hperm : xs.Perm ys)
    (hnan : ∀ a ∈ xs, a ≠ nan) : xs.mergeSort notAfter = ys.mergeSort notAfter := by
  refine mergeSort_eq_of_perm ?_ ?_ ?_ hperm hnan
  · intro a b c ha hb hc hab hbc
    rw [notAfter_iff ha hb] at hab
    rw [notAfter_iff hb hc] at hbc
    rw [notAfter_iff ha hc]
    exact hab.trans hbc
  · intro a b ha hb
    rw [Bool.or_eq_true, notAfter_iff ha hb, notAfter_iff hb ha]
    exact le_total _ _
  · intro a b ha hb hab hba
    rw [notAfter_iff ha hb] at hab
    rw [notAfter_iff hb ha] at hba
    exact eq_of_line ha hb (le_antisymm hab hba)

end Floats

end Selection
