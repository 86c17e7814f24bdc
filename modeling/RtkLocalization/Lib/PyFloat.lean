import Mathlib.Algebra.Order.Field.Basic
import Mathlib.Data.Rat.Cast.Defs
import Mathlib.Tactic.Linarith
import Mathlib.Tactic.NormNum.OfScientific

/-!
# Python floats with an exact finite part

A `PyFloat K` is a finite value of the ordered field `K`, one of the two
infinities, or NaN. Arithmetic on finite values is exact (no rounding, no
overflow, one zero); the other cases follow IEEE 754: a NaN operand gives NaN,
`∞ - ∞` and `0 * ∞` are NaN, every comparison with NaN is false. `pyMax` and
`pyMin` are the two-argument builtins, which return their first argument unless
the second one compares strictly better, so their value on NaN depends on the
order of the arguments.
-/

/-- A float: finite, `inf`, `-inf` or `nan`. -/
inductive PyFloat (K : Type) where
  | fin (x : K)
  | inf
  | neginf
  | nan
  deriving DecidableEq, Repr

/-- `math.isfinite`, for every number type a model is instantiated at. -/
class IsFinite (α : Type) where
  isfinite : α → Bool

export IsFinite (isfinite)

def pyMax {α : Type} [LT α] [DecidableLT α] (a b : α) : α := if a < b then b else a

def pyMin {α : Type} [LT α] [DecidableLT α] (a b : α) : α := if b < a then b else a

def pyAbs {α : Type} [LT α] [DecidableLT α] [Neg α] [OfScientific α] (a : α) : α :=
  if a < 0.0 then -a else a

theorem pyMax_eq_max {K : Type} [LinearOrder K] (a b : K) : pyMax a b = max a b := by
  unfold pyMax
  split_ifs with h
  · exact (max_eq_right h.le).symm
  · exact (max_eq_left (not_lt.mp h)).symm

theorem pyMin_eq_min {K : Type} [LinearOrder K] (a b : K) : pyMin a b = min a b := by
  unfold pyMin
  split_ifs with h
  · exact (min_eq_right h.le).symm
  · exact (min_eq_left (not_lt.mp h)).symm

namespace PyFloat
variable {K : Type}

/-! ### Comparisons -/

section Order
variable [LinearOrder K]

/-- `a < b`; false as soon as one side is NaN. -/
def ltb : PyFloat K → PyFloat K → Bool
  | fin x, fin y => decide (x < y)
  | fin _, inf => true
  | neginf, fin _ => true
  | neginf, inf => true
  | _, _ => false

/-- `a <= b`; an infinity is `<=` itself, NaN is not. -/
def leb : PyFloat K → PyFloat K → Bool
  | fin x, fin y => decide (x ≤ y)
  | nan, _ => false
  | _, nan => false
  | neginf, _ => true
  | _, inf => true
  | _, _ => false

instance : LT (PyFloat K) := ⟨fun a b => ltb a b = true⟩
instance : LE (PyFloat K) := ⟨fun a b => leb a b = true⟩
instance : DecidableLT (PyFloat K) := fun a b => inferInstanceAs (Decidable (ltb a b = true))
instance : DecidableLE (PyFloat K) := fun a b => inferInstanceAs (Decidable (leb a b = true))

theorem lt_iff (a b : PyFloat K) : a < b ↔ ltb a b = true := Iff.rfl
theorem le_iff (a b : PyFloat K) : a ≤ b ↔ leb a b = true := Iff.rfl

@[simp] theorem fin_lt_fin (x y : K) : fin x < fin y ↔ x < y := by simp [lt_iff, ltb]
@[simp] theorem fin_le_fin (x y : K) : fin x ≤ fin y ↔ x ≤ y := by simp [le_iff, leb]
@[simp] theorem fin_lt_inf (x : K) : fin x < inf := rfl
@[simp] theorem fin_le_inf (x : K) : fin x ≤ inf := rfl
@[simp] theorem inf_le_inf : (inf : PyFloat K) ≤ inf := rfl
@[simp] theorem neginf_lt_fin (x : K) : neginf < fin x := rfl
@[simp] theorem not_fin_lt_neginf (x : K) : ¬ fin x < neginf := by simp [lt_iff, ltb]
@[simp] theorem not_fin_le_neginf (x : K) : ¬ fin x ≤ neginf := by simp [le_iff, leb]
@[simp] theorem not_inf_lt (a : PyFloat K) : ¬ inf < a := by cases a <;> simp [lt_iff, ltb]
@[simp] theorem not_inf_le_fin (x : K) : ¬ inf ≤ fin x := by simp [le_iff, leb]
@[simp] theorem not_inf_le_neginf : ¬ (inf : PyFloat K) ≤ neginf := by simp [le_iff, leb]
@[simp] theorem not_nan_lt (a : PyFloat K) : ¬ nan < a := by cases a <;> simp [lt_iff, ltb]
@[simp] theorem not_lt_nan (a : PyFloat K) : ¬ a < nan := by cases a <;> simp [lt_iff, ltb]
@[simp] theorem not_nan_le (a : PyFloat K) : ¬ nan ≤ a := by cases a <;> simp [le_iff, leb]
@[simp] theorem not_le_nan (a : PyFloat K) : ¬ a ≤ nan := by cases a <;> simp [le_iff, leb]

@[simp] theorem pyMax_fin (x y : K) : pyMax (fin x) (fin y) = fin (max x y) := by
  rw [← pyMax_eq_max]
  simp only [pyMax, fin_lt_fin]
  split_ifs <;> rfl

@[simp] theorem pyMin_fin (x y : K) : pyMin (fin x) (fin y) = fin (min x y) := by
  rw [← pyMin_eq_min]
  simp only [pyMin, fin_lt_fin]
  split_ifs <;> rfl

/-- Cutting two values at the same limit: the first stays below exactly when it
was below or the limit was. -/
theorem pyMin_le_pyMin_iff (x : K) (m hi : PyFloat K) (hhi : hi = inf ∨ ∃ h, hi = fin h) :
    pyMin (fin x) hi ≤ pyMin m hi ↔ fin x ≤ m ∨ hi ≤ m := by
  obtain rfl | ⟨h, rfl⟩ := hhi
  · cases m <;> simp [pyMin]
  · rw [pyMin_fin]
    cases m with
    | fin y => simp
    | inf =>
      have h' : pyMin inf (fin h) = fin h := by simp [pyMin]
      simp [h']
    | neginf => simp [pyMin]
    | nan => simp [pyMin]

theorem fin_le_pyMax (x : K) {b : PyFloat K} (hb : ¬ b = nan) : fin x ≤ pyMax (fin x) b := by
  cases b with
  | fin y => simp
  | inf => simp [pyMax]
  | neginf => simp [pyMax]
  | nan => exact absurd rfl hb

end Order

/-! ### Finiteness -/

instance : IsFinite (PyFloat K) where
  isfinite
    | fin _ => true
    | _ => false

@[simp] theorem isfinite_fin (x : K) : isfinite (fin x) = true := rfl
@[simp] theorem isfinite_inf : isfinite (inf : PyFloat K) = false := rfl
@[simp] theorem isfinite_neginf : isfinite (neginf : PyFloat K) = false := rfl
@[simp] theorem isfinite_nan : isfinite (nan : PyFloat K) = false := rfl

def val [Zero K] : PyFloat K → K
  | fin x => x
  | _ => 0

@[simp] theorem val_fin [Zero K] (x : K) : (fin x).val = x := rfl

/-! ### Arithmetic -/

section Arith
variable [Field K]

instance : OfScientific (PyFloat K) where
  ofScientific m s e := fin (OfScientific.ofScientific m s e)

theorem ofScientific_eq (m : ℕ) (s : Bool) (e : ℕ) :
    (OfScientific.ofScientific m s e : PyFloat K) = fin (OfScientific.ofScientific m s e) := rfl

@[simp] theorem zero_literal [CharZero K] : (0.0 : PyFloat K) = fin 0 :=
  congrArg fin (by norm_num)

@[simp] theorem one_literal [CharZero K] : (1.0 : PyFloat K) = fin 1 :=
  congrArg fin (by norm_num)

theorem hundred_literal [CharZero K] : (100.0 : PyFloat K) = fin 100 :=
  congrArg fin (by norm_num)

def neg : PyFloat K → PyFloat K
  | fin x => fin (-x)
  | inf => neginf
  | neginf => inf
  | nan => nan

def add : PyFloat K → PyFloat K → PyFloat K
  | fin x, fin y => fin (x + y)
  | nan, _ => nan
  | _, nan => nan
  | inf, neginf => nan
  | neginf, inf => nan
  | inf, _ => inf
  | _, inf => inf
  | neginf, _ => neginf
  | _, neginf => neginf

instance : Neg (PyFloat K) := ⟨neg⟩
instance : Add (PyFloat K) := ⟨add⟩
instance : Sub (PyFloat K) := ⟨fun a b => add a (neg b)⟩

@[simp] theorem fin_add_fin (x y : K) : fin x + fin y = fin (x + y) := rfl
@[simp] theorem fin_sub_fin (x y : K) : fin x - fin y = fin (x - y) :=
  congrArg fin (sub_eq_add_neg x y).symm

theorem isfinite_add (a b : PyFloat K) :
    isfinite (a + b) = true ↔ isfinite a = true ∧ isfinite b = true := by
  show isfinite (add a b) = true ↔ _
  cases a <;> cases b <;> simp [add]

theorem isfinite_sub (a b : PyFloat K) :
    isfinite (a - b) = true ↔ isfinite a = true ∧ isfinite b = true := by
  show isfinite (add a (neg b)) = true ↔ _
  cases a <;> cases b <;> simp [add, neg]

variable [LinearOrder K]

def mulInf (x : K) : PyFloat K := if 0 < x then inf else if x < 0 then neginf else nan

def mul : PyFloat K → PyFloat K → PyFloat K
  | fin x, fin y => fin (x * y)
  | nan, _ => nan
  | _, nan => nan
  | fin x, inf => mulInf x
  | inf, fin x => mulInf x
  | fin x, neginf => mulInf (-x)
  | neginf, fin x => mulInf (-x)
  | inf, inf => inf
  | neginf, neginf => inf
  | inf, neginf => neginf
  | neginf, inf => neginf

instance : Mul (PyFloat K) := ⟨mul⟩

@[simp] theorem fin_mul_fin (x y : K) : fin x * fin y = fin (x * y) := rfl

theorem isfinite_fin_mul {x : K} (hx : 0 < x) (a : PyFloat K) :
    isfinite (fin x * a) = true ↔ isfinite a = true := by
  show isfinite (mul (fin x) a) = true ↔ _
  have hi : isfinite (mulInf x : PyFloat K) = false := by simp [mulInf, hx]
  have hn : isfinite (mulInf (-x) : PyFloat K) = false := by
    unfold mulInf
    split_ifs <;> rfl
  cases a <;> simp [mul, hi, hn]

theorem isfinite_mul_self (a : PyFloat K) : isfinite (a * a) = true ↔ isfinite a = true := by
  show isfinite (mul a a) = true ↔ _
  cases a <;> simp [mul]

/-- Division of IEEE 754; the one zero counts as positive. -/
def div : PyFloat K → PyFloat K → PyFloat K
  | nan, _ => nan
  | _, nan => nan
  | fin x, fin y => if y = 0 then mulInf x else fin (x / y)
  | fin _, _ => fin 0
  | inf, fin y => if y < 0 then neginf else inf
  | neginf, fin y => if y < 0 then inf else neginf
  | _, _ => nan

instance : Div (PyFloat K) := ⟨div⟩

theorem fin_div_fin (x : K) {y : K} (hy : y ≠ 0) : fin x / fin y = fin (x / y) := by
  show div (fin x) (fin y) = _
  rw [div, if_neg hy]

end Arith

def isinf : PyFloat K → Bool
  | inf => true
  | neginf => true
  | _ => false

def isnan : PyFloat K → Bool
  | nan => true
  | _ => false

theorem exists_fin_of_isfinite {a : PyFloat K} (h : isfinite a = true) : ∃ x, a = fin x := by
  cases a with
  | fin x => exact ⟨x, rfl⟩
  | inf => cases h
  | neginf => cases h
  | nan => cases h

theorem exists_map_fin {as : List (PyFloat K)} (h : ∀ a ∈ as, isfinite a = true) :
    ∃ xs : List K, as = xs.map fin := by
  induction as with
  | nil => exact ⟨[], rfl⟩
  | cons a as ih =>
    obtain ⟨x, rfl⟩ := exists_fin_of_isfinite (h a List.mem_cons_self)
    obtain ⟨xs, rfl⟩ := ih fun b hb => h b (List.mem_cons_of_mem _ hb)
    exact ⟨x :: xs, rfl⟩

theorem ne_nan_of_isfinite {a : PyFloat K} (h : isfinite a = true) : a ≠ nan := by
  obtain ⟨x, rfl⟩ := exists_fin_of_isfinite h
  exact nofun

theorem isinf_of_isfinite {a : PyFloat K} (h : isfinite a = true) : isinf a = false := by
  obtain ⟨x, rfl⟩ := exists_fin_of_isfinite h
  rfl

end PyFloat
