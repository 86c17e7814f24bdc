import Mathlib.Data.List.Perm.Basic

/-!
# Keyed lists

A list of values under keys is known up to order from the values of each key.
-/

section Keyed
variable {T α : Type} [DecidableEq T]

/-- The values of one key, in their order. -/
def valuesOf (xs : List (T × α)) (t : T) : List α := (xs.filter fun x => x.1 = t).map Prod.snd

theorem valuesOf_append (xs ys : List (T × α)) (t : T) :
    valuesOf (xs ++ ys) t = valuesOf xs t ++ valuesOf ys t := by
  unfold valuesOf
  rw [List.filter_append, List.map_append]

theorem count_valuesOf [DecidableEq α] (xs : List (T × α)) (t : T) (a : α) :
    (valuesOf xs t).count a = xs.count (t, a) := by
  induction xs with
  | nil => rfl
  | cons x xs ih =>
    unfold valuesOf at ih ⊢
    by_cases ht : x.1 = t
    · rw [List.filter_cons_of_pos (by simpa using ht), List.map_cons, List.count_cons,
        List.count_cons, ih]
      simp only [beq_iff_eq, Prod.ext_iff, ht, true_and]
    · rw [List.filter_cons_of_neg (by simpa using ht), List.count_cons, ih, if_neg]
      · rfl
      · intro h
        exact ht (congrArg Prod.fst (beq_iff_eq.mp h))

/-- Lists with the same values of every key are the same up to order. -/
theorem perm_of_valuesOf_eq {xs ys : List (T × α)} (h : ∀ t, valuesOf xs t = valuesOf ys t) :
    xs.Perm ys := by
  classical
  refine List.perm_iff_count.mpr ?_
  rintro ⟨t, a⟩
  rw [← count_valuesOf, ← count_valuesOf, h t]

end Keyed
