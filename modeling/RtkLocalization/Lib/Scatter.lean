import Mathlib.Data.List.Basic

/-!
# Loops that update one cell per element

A loop runs over the elements of a list; each element names at most one cell of
an array and updates it. Cell `c` of the result depends only on the elements that
name it, in their order (`scatter_replicate`). A loop that updates several cells
per element is a loop over the pairs of element and cell.
-/

namespace Scatter
variable {ι α : Type}

def scatter (key : ι → Option ℕ) (update : ι → α → α) (cells : List α) (xs : List ι) : List α :=
  xs.foldl
    (fun cells x =>
      match key x with
      | none => cells
      | some c => cells.modify c (update x))
    cells

/-- The elements that name cell `c`. -/
def naming (key : ι → Option ℕ) (xs : List ι) (c : ℕ) : List ι :=
  xs.filter fun x => key x = some c

variable (key : ι → Option ℕ) (update : ι → α → α)

theorem mem_naming {xs : List ι} {c : ℕ} {x : ι} :
    x ∈ naming key xs c ↔ x ∈ xs ∧ key x = some c := by
  simp [naming]

theorem getElem?_scatter (cells : List α) (xs : List ι) (c : ℕ) :
    (scatter key update cells xs)[c]?
      = cells[c]?.map fun a => (naming key xs c).foldl (fun a x => update x a) a := by
  induction xs generalizing cells with
  | nil => simp [scatter, naming]
  | cons x xs ih =>
    have hstep : scatter key update cells (x :: xs)
        = scatter key update (scatter key update cells [x]) xs := rfl
    rw [hstep, ih]
    cases hkey : key x with
    | none => simp [scatter, naming, hkey]
    | some d =>
      by_cases hd : d = c
      · subst hd
        simp [scatter, naming, hkey, Function.comp_def]
      · simp [scatter, naming, hkey, hd, List.getElem?_modify_ne]

theorem scatter_replicate (n : ℕ) (a : α) (xs : List ι) :
    scatter key update (List.replicate n a) xs
      = (List.range n).map fun c => (naming key xs c).foldl (fun a x => update x a) a := by
  apply List.ext_getElem?
  intro c
  rw [getElem?_scatter, List.getElem?_map, List.getElem?_replicate]
  by_cases hc : c < n
  · simp [hc]
  · simp [hc]

/-- Elements that a loop ignores may be left out. -/
theorem foldl_filter_of_ignored {σ : Type} {step : σ → ι → σ} {keep : ι → Bool}
    (h : ∀ s x, keep x = false → step s x = s) (s : σ) (xs : List ι) :
    (xs.filter keep).foldl step s = xs.foldl step s := by
  induction xs generalizing s with
  | nil => rfl
  | cons x xs ih =>
    cases hx : keep x with
    | true =>
      rw [List.filter_cons_of_pos hx, List.foldl_cons, List.foldl_cons]
      exact ih _
    | false =>
      rw [List.filter_cons_of_neg (by simp [hx]), List.foldl_cons, h s x hx]
      exact ih s

end Scatter
