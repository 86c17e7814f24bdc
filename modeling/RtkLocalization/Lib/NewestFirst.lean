import Mathlib.Data.List.DropRight
import Mathlib.Order.Lattice

/-!
# Histories

A list with the newest element at its head. To drop from the head what is too new, or
from the back what is too old, is to filter.
-/

section NewestFirst
variable {α τ : Type} [LinearOrder τ] {time : α → τ}

def NewestFirst (time : α → τ) (xs : List α) : Prop := xs.Pairwise fun a b => time b ≤ time a

theorem NewestFirst.dropWhile_eq_filter {xs : List α} (h : NewestFirst time xs) (t : τ) :
    (xs.dropWhile fun a => t < time a) = xs.filter fun a => time a ≤ t := by
  induction xs with
  | nil => rfl
  | cons a xs ih =>
    obtain ⟨ha, hxs⟩ := List.pairwise_cons.mp h
    rcases lt_or_ge t (time a) with hlt | hle
    · rw [List.dropWhile_cons_of_pos (by simpa using hlt),
        List.filter_cons_of_neg (by simpa using hlt)]
      exact ih hxs
    · rw [List.dropWhile_cons_of_neg (by simpa using hle), List.filter_eq_self.mpr]
      intro b hb
      rcases List.mem_cons.mp hb with rfl | hb
      · exact decide_eq_true hle
      · exact decide_eq_true ((ha b hb).trans hle)

theorem NewestFirst.rdropWhile_eq_filter {xs : List α} (h : NewestFirst time xs) (t : τ) :
    (xs.rdropWhile fun a => time a < t) = xs.filter fun a => t ≤ time a := by
  induction xs using List.reverseRecOn with
  | nil => rfl
  | append_singleton xs a ih =>
    obtain ⟨hxs, -, ha⟩ := List.pairwise_append.mp h
    rcases lt_or_ge (time a) t with hlt | hle
    · rw [List.rdropWhile_concat_pos _ _ _ (by simpa using hlt), ih hxs, List.filter_append,
        List.filter_cons_of_neg (by simpa using hlt), List.filter_nil, List.append_nil]
    · rw [List.rdropWhile_concat_neg _ _ _ (by simpa using hle), List.filter_eq_self.mpr]
      intro b hb
      rcases List.mem_append.mp hb with hb | hb
      · exact decide_eq_true (hle.trans (ha b hb a (List.mem_singleton_self a)))
      · rw [List.mem_singleton.mp hb]
        exact decide_eq_true hle

end NewestFirst
