import RtkLocalization.Lib.PyFloat
import RtkLocalization.Lib.PyText
import Mathlib.Algebra.Order.Round
import Mathlib.Algebra.Field.Rat
import Mathlib.Algebra.Order.Ring.Rat
import Mathlib.Data.Rat.Floor
import Mathlib.Tactic.Ring
import Mathlib.Tactic.FieldSimp
import Mathlib.Tactic.Positivity

/-!
# Decimal texts of Python

`str(int)`, the fixed-point format `"{x:.pf}"` of a finite float and the
constructor `float(text)`. A finite float is a sign and an exact magnitude, so
that the sign of zero is printed as Python prints it; formatting rounds the exact
magnitude half to even. `pyFloat` reads the documented grammar (white space,
sign, digits with single underscores between them, point, exponent, `inf`,
`infinity`, `nan`) with ASCII digits and returns the exact decimal value. What
formatting writes is read back up to half a unit of the last digit
(`pyFloat_formatFixed`).
-/

open PyText

namespace PyDecimal

/-! ### Writing -/

structure FiniteFloat where
  negative : Bool
  magnitude : ℚ
  nonneg : 0 ≤ magnitude

def signed {K : Type} [Neg K] (negative : Bool) (x : K) : K := if negative then -x else x

def FiniteFloat.value (x : FiniteFloat) : ℚ := signed x.negative x.magnitude

def digitChar (d : ℕ) : Char := Char.ofNat (48 + d)

def natText (n : ℕ) : Text :=
  if n < 10 then [digitChar n] else natText (n / 10) ++ [digitChar (n % 10)]
  termination_by n
  decreasing_by omega

def signedText (negative : Bool) (t : Text) : Text := if negative then '-' :: t else t

def intText (z : ℤ) : Text := signedText (decide (z < 0)) (natText z.natAbs)

/-- The last `p` decimal digits of `k`, with leading zeros. -/
def fracText : ℕ → ℕ → Text
  | 0, _ => []
  | p + 1, k => fracText p (k / 10) ++ [digitChar (k % 10)]

def roundHalfEven (q : ℚ) : ℤ :=
  let r := q - ⌊q⌋
  if r < 1 / 2 then ⌊q⌋
  else if 1 / 2 < r then ⌊q⌋ + 1
  else if ⌊q⌋ % 2 = 0 then ⌊q⌋ else ⌊q⌋ + 1

/-- The magnitude in units of the last printed digit. -/
def scaled (p : ℕ) (x : FiniteFloat) : ℕ := (roundHalfEven (x.magnitude * 10 ^ p)).toNat

/-- `"{x:.pf}"` for `p > 0`. -/
def formatFixed (p : ℕ) (x : FiniteFloat) : Text :=
  let m := scaled p x
  signedText x.negative (natText (m / 10 ^ p) ++ '.' :: fracText p (m % 10 ^ p))

/-! ### Reading -/

def isDigit (c : Char) : Bool := 48 ≤ c.toNat && c.toNat ≤ 57

def digitsVal (t : Text) : ℕ := t.foldl (fun n c => 10 * n + (c.toNat - 48)) 0

/-- Removes the underscores; each has to stand between two digits. -/
def dropUnderscores : Char → Text → Option Text
  | prev, [] => if prev = '_' then none else some []
  | prev, c :: t =>
    if c = '_' then
      if isDigit prev then dropUnderscores c t else none
    else if prev = '_' && !isDigit c then none
    else (dropUnderscores c t).map (c :: ·)

def splitSign : Text → Bool × Text
  | '-' :: t => (true, t)
  | '+' :: t => (false, t)
  | t => (false, t)

def parseExponent (t : Text) : Option ℤ :=
  let (negative, digits) := splitSign t
  if digits.isEmpty || !digits.all isDigit then none else some (signed negative (digitsVal digits))

def splitPoint : Text → Text × Text
  | '.' :: t => (t.takeWhile isDigit, t.dropWhile isDigit)
  | t => ([], t)

section Read
variable (K : Type) [Field K]

def parseNumber (t : Text) : Option K :=
  let ip := t.takeWhile isDigit
  let (fp, rest) := splitPoint (t.dropWhile isDigit)
  if ip.isEmpty && fp.isEmpty then none
  else
    let mantissa : K := (digitsVal (ip ++ fp) : K) / ((10 ^ fp.length : ℕ) : K)
    match rest with
    | [] => some mantissa
    | c :: e =>
      if c = 'e' || c = 'E' then
        (parseExponent e).map fun n => mantissa * ((10 : ℕ) : K) ^ n
      else none

def parseUnsigned (t : Text) : Option (PyFloat K) :=
  let lower := t.map Char.toLower
  if lower = "inf".toList || lower = "infinity".toList then some .inf
  else if lower = "nan".toList then some .nan
  else (parseNumber K t).map .fin

/-- `float(text)`. -/
def pyFloat (t : Text) : Option (PyFloat K) := do
  let t ← dropUnderscores ' ' (strip isSpace t)
  let (negative, t) := splitSign t
  (parseUnsigned K t).map (signed negative)

end Read

/-! ### Digits -/

theorem toNat_digitChar {d : ℕ} (h : d < 10) : (digitChar d).toNat = 48 + d := by
  revert d
  decide

theorem isDigit_digitChar {d : ℕ} (h : d < 10) : isDigit (digitChar d) = true := by
  simp only [isDigit, toNat_digitChar h, Bool.and_eq_true, decide_eq_true_eq]
  omega

theorem digitsVal_concat (t : Text) {d : ℕ} (h : d < 10) :
    digitsVal (t ++ [digitChar d]) = 10 * digitsVal t + d := by
  simp only [digitsVal, List.foldl_append, List.foldl_cons, List.foldl_nil, toNat_digitChar h]
  omega

theorem isDigit_of_mem_natText (n : ℕ) : ∀ c ∈ natText n, isDigit c = true := by
  induction n using Nat.strong_induction_on with
  | _ n ih =>
    intro c hc
    rw [natText] at hc
    split_ifs at hc with h
    · rw [List.mem_singleton.mp hc]
      exact isDigit_digitChar h
    · rcases List.mem_append.mp hc with hc | hc
      · exact ih (n / 10) (by omega) c hc
      · rw [List.mem_singleton.mp hc]
        exact isDigit_digitChar (Nat.mod_lt n (by omega))

theorem natText_ne_nil (n : ℕ) : natText n ≠ [] := by
  rw [natText]
  split_ifs
  · exact List.cons_ne_nil _ _
  · exact List.append_ne_nil_of_right_ne_nil _ (List.cons_ne_nil _ _)

theorem digitsVal_natText (n : ℕ) : digitsVal (natText n) = n := by
  induction n using Nat.strong_induction_on with
  | _ n ih =>
    rw [natText]
    split_ifs with h
    · have hd := digitsVal_concat [] h
      rw [List.nil_append] at hd
      rw [hd]
      simp [digitsVal]
    · rw [digitsVal_concat _ (Nat.mod_lt n (by omega)), ih (n / 10) (by omega)]
      omega

theorem length_fracText (p k : ℕ) : (fracText p k).length = p := by
  induction p generalizing k with
  | zero => rfl
  | succ p ih => simp only [fracText, List.length_append, ih, List.length_singleton]

theorem isDigit_of_mem_fracText (p k : ℕ) : ∀ c ∈ fracText p k, isDigit c = true := by
  induction p generalizing k with
  | zero =>
    intro c hc
    cases hc
  | succ p ih =>
    intro c hc
    rcases List.mem_append.mp hc with hc | hc
    · exact ih (k / 10) c hc
    · rw [List.mem_singleton.mp hc]
      exact isDigit_digitChar (Nat.mod_lt k (by omega))

/-- Digits appended to a text that is read already. -/
theorem digitsVal_append_fracText (t : Text) (p k : ℕ) :
    digitsVal (t ++ fracText p k) = digitsVal t * 10 ^ p + k % 10 ^ p := by
  induction p generalizing k with
  | zero => simp [fracText, Nat.mod_one]
  | succ p ih =>
    rw [fracText, ← List.append_assoc, digitsVal_concat _ (Nat.mod_lt k (by omega)), ih]
    have hsplit : k % 10 ^ (p + 1) = 10 * (k / 10 % 10 ^ p) + k % 10 := by
      rw [pow_succ', Nat.mod_mul]
      omega
    rw [hsplit, pow_succ]
    ring

/-! ### Rounding -/

theorem abs_roundHalfEven_sub (q : ℚ) : |(roundHalfEven q : ℚ) - q| ≤ 1 / 2 := by
  have h0 := Int.floor_le q
  have h1 := Int.lt_floor_add_one q
  rw [abs_le]
  simp only [roundHalfEven]
  split_ifs with hlt hgt heven
  · constructor <;> linarith
  · push_cast
    constructor <;> linarith
  · constructor <;> linarith
  · push_cast
    constructor <;> linarith

theorem roundHalfEven_nonneg {q : ℚ} (h : 0 ≤ q) : 0 ≤ roundHalfEven q := by
  have hfloor : 0 ≤ ⌊q⌋ := Int.floor_nonneg.mpr h
  simp only [roundHalfEven]
  split_ifs <;> omega

theorem abs_scaled_sub (p : ℕ) (x : FiniteFloat) :
    |(scaled p x : ℚ) / (10 ^ p : ℕ) - x.magnitude| ≤ 1 / 2 / (10 ^ p : ℕ) := by
  have hpos : (0 : ℚ) < (10 ^ p : ℕ) := by positivity
  have hnonneg : 0 ≤ roundHalfEven (x.magnitude * 10 ^ p) :=
    roundHalfEven_nonneg (mul_nonneg x.nonneg (by positivity))
  have hcast : (scaled p x : ℚ) = (roundHalfEven (x.magnitude * 10 ^ p) : ℚ) := by
    rw [scaled, ← Int.cast_natCast, Int.toNat_of_nonneg hnonneg]
  have hround := abs_roundHalfEven_sub (x.magnitude * 10 ^ p)
  have hsub : (scaled p x : ℚ) / (10 ^ p : ℕ) - x.magnitude
      = (scaled p x - x.magnitude * (10 ^ p : ℕ)) / (10 ^ p : ℕ) := by
    field_simp
  rw [hsub, abs_div, abs_of_pos hpos, hcast]
  push_cast
  exact div_le_div_of_nonneg_right hround (by positivity)

theorem abs_signed_sub {K : Type} [Field K] [LinearOrder K] [IsStrictOrderedRing K] (s : Bool)
    (a b : K) : |signed s a - signed s b| = |a - b| := by
  cases s with
  | false => rfl
  | true =>
    simp only [signed, if_true]
    rw [neg_sub_neg, abs_sub_comm]

/-! ### Reading what was written -/

theorem takeWhile_isDigit {a : Text} (h : ∀ c ∈ a, isDigit c = true) {c : Char}
    (hc : isDigit c = false) (b : Text) :
    (a ++ c :: b).takeWhile isDigit = a ∧ (a ++ c :: b).dropWhile isDigit = c :: b := by
  constructor
  · rw [List.takeWhile_append_of_pos h, List.takeWhile_cons, hc]
    simp
  · rw [List.dropWhile_append_of_pos h, List.dropWhile_cons, hc]
    simp

theorem parseNumber_fixed (K : Type) [Field K] (p i f : ℕ) :
    parseNumber K (natText i ++ '.' :: fracText p f)
      = some (((i * 10 ^ p + f % 10 ^ p : ℕ) : K) / ((10 ^ p : ℕ) : K)) := by
  obtain ⟨htake, hdrop⟩ := takeWhile_isDigit (isDigit_of_mem_natText i) (by decide : isDigit '.' = false)
    (fracText p f)
  have hfrac : (fracText p f).takeWhile isDigit = fracText p f :=
    List.takeWhile_eq_self_iff.mpr (isDigit_of_mem_fracText p f)
  have hrest : (fracText p f).dropWhile isDigit = [] :=
    List.dropWhile_eq_nil_iff.mpr (isDigit_of_mem_fracText p f)
  have hne : (natText i).isEmpty = false := by
    simpa using natText_ne_nil i
  simp only [parseNumber, htake, hdrop, splitPoint, hfrac, hrest, hne, Bool.false_and,
    Bool.false_eq_true, if_false, length_fracText, digitsVal_append_fracText, digitsVal_natText]

theorem dropUnderscores_eq_self {t : Text} (h : '_' ∉ t) {prev : Char} (hprev : prev ≠ '_') :
    dropUnderscores prev t = some t := by
  induction t generalizing prev with
  | nil => rw [dropUnderscores, if_neg hprev]
  | cons c t ih =>
    have hc : c ≠ '_' := by
      rintro rfl
      exact h List.mem_cons_self
    have hb : (decide (prev = '_')) = false := by simpa using hprev
    rw [dropUnderscores, if_neg hc, hb, Bool.false_and, if_neg Bool.false_ne_true,
      ih (fun ht => h (List.mem_cons_of_mem c ht)) hc]
    rfl

theorem splitSign_eq {t : Text} (hm : '-' ∉ t) (hp : '+' ∉ t) : splitSign t = (false, t) := by
  unfold splitSign
  split
  · exact absurd List.mem_cons_self hm
  · exact absurd List.mem_cons_self hp
  · rfl

theorem splitSign_signedText (s : Bool) {t : Text} (hm : '-' ∉ t) (hp : '+' ∉ t) :
    splitSign (signedText s t) = (s, t) := by
  cases s with
  | false => exact splitSign_eq hm hp
  | true => rfl

theorem parseUnsigned_of_point (K : Type) [Field K] {t : Text} (h : '.' ∈ t) :
    parseUnsigned K t = (parseNumber K t).map .fin := by
  have hlower : '.' ∈ t.map Char.toLower := List.mem_map.mpr ⟨'.', h, by decide⟩
  have hne : ∀ s : Text, '.' ∉ s → t.map Char.toLower ≠ s := by
    rintro s hs rfl
    exact hs hlower
  simp only [parseUnsigned, hne _ (by decide : '.' ∉ "inf".toList),
    hne _ (by decide : '.' ∉ "infinity".toList), hne _ (by decide : '.' ∉ "nan".toList),
    decide_false, Bool.or_false, Bool.false_eq_true, if_false]

/-! ### The characters of a decimal text -/

def isDecimalChar (c : Char) : Bool := isDigit c || c == '.' || c == '-'

theorem ne_of_isDecimalChar {c d : Char} (hc : isDecimalChar c = true)
    (hd : isDecimalChar d = false) : c ≠ d := by
  rintro rfl
  exact Bool.false_ne_true (hd.symm.trans hc)

theorem isSpace_of_isDecimalChar {c : Char} (hc : isDecimalChar c = true) : isSpace c = false := by
  simp only [isDecimalChar, isDigit, Bool.or_eq_true, Bool.and_eq_true, decide_eq_true_eq,
    beq_iff_eq] at hc
  rcases hc with (⟨h1, h2⟩ | rfl) | rfl
  · simp only [isSpace, Bool.or_eq_false_iff, Bool.and_eq_false_iff, decide_eq_false_iff_not,
      beq_eq_false_iff_ne]
    omega
  · decide
  · decide

theorem isDecimalChar_of_mem_signedText {s : Bool} {t : Text}
    (h : ∀ c ∈ t, isDecimalChar c = true) : ∀ c ∈ signedText s t, isDecimalChar c = true := by
  cases s with
  | false => exact h
  | true => exact List.forall_mem_cons.mpr ⟨by decide, h⟩

theorem isDecimalChar_of_isDigit {c : Char} (h : isDigit c = true) : isDecimalChar c = true := by
  rw [isDecimalChar, h]
  rfl

theorem isDecimalChar_of_mem_intText (z : ℤ) : ∀ c ∈ intText z, isDecimalChar c = true :=
  isDecimalChar_of_mem_signedText fun c hc =>
    isDecimalChar_of_isDigit (isDigit_of_mem_natText z.natAbs c hc)

theorem isDecimalChar_of_mem_formatFixed (p : ℕ) (x : FiniteFloat) :
    ∀ c ∈ formatFixed p x, isDecimalChar c = true := by
  refine isDecimalChar_of_mem_signedText fun c hc => ?_
  rcases List.mem_append.mp hc with hc | hc
  · exact isDecimalChar_of_isDigit (isDigit_of_mem_natText _ c hc)
  · rcases List.mem_cons.mp hc with rfl | hc
    · decide
    · exact isDecimalChar_of_isDigit (isDigit_of_mem_fracText _ _ c hc)

theorem signedText_ne_nil {t : Text} (h : t ≠ []) (s : Bool) : signedText s t ≠ [] := by
  cases s with
  | false => exact h
  | true => exact List.cons_ne_nil _ _

theorem intText_ne_nil (z : ℤ) : intText z ≠ [] := signedText_ne_nil (natText_ne_nil _) _

theorem formatFixed_ne_nil (p : ℕ) (x : FiniteFloat) : formatFixed p x ≠ [] :=
  signedText_ne_nil (List.append_ne_nil_of_right_ne_nil _ (List.cons_ne_nil _ _)) _

/-! ### The round trip -/

/-- The decimal value that `formatFixed` prints. -/
def printed (K : Type) [Field K] (p : ℕ) (x : FiniteFloat) : K :=
  signed x.negative ((scaled p x : K) / ((10 ^ p : ℕ) : K))

theorem pyFloat_formatFixed (K : Type) [Field K] (p : ℕ) (x : FiniteFloat) :
    pyFloat K (formatFixed p x) = some (.fin (printed K p x)) := by
  have hchar := isDecimalChar_of_mem_formatFixed p x
  have hnot : ∀ d, isDecimalChar d = false → d ∉ formatFixed p x := by
    intro d hd hmem
    exact ne_of_isDecimalChar (hchar d hmem) hd rfl
  have hstrip : strip isSpace (formatFixed p x) = formatFixed p x :=
    strip_eq_self fun c hc => isSpace_of_isDecimalChar (hchar c hc)
  have hunder : dropUnderscores ' ' (formatFixed p x) = some (formatFixed p x) :=
    dropUnderscores_eq_self (hnot '_' (by decide)) (by decide)
  -- the unsigned part: digits and a point
  set body := natText (scaled p x / 10 ^ p) ++ '.' :: fracText p (scaled p x % 10 ^ p) with hbody
  have hdigits : ∀ d, isDigit d = false → d ≠ '.' → d ∉ body := by
    intro d hd hpoint hmem
    rcases List.mem_append.mp hmem with h | h
    · exact Bool.false_ne_true (hd.symm.trans (isDigit_of_mem_natText _ d h))
    · rcases List.mem_cons.mp h with h | h
      · exact hpoint h
      · exact Bool.false_ne_true (hd.symm.trans (isDigit_of_mem_fracText _ _ d h))
  have hsign : splitSign (formatFixed p x) = (x.negative, body) :=
    splitSign_signedText _ (hdigits '-' (by decide) (by decide)) (hdigits '+' (by decide) (by decide))
  have hpoint : '.' ∈ body := List.mem_append_right _ List.mem_cons_self
  have hvalue : scaled p x / 10 ^ p * 10 ^ p + scaled p x % 10 ^ p % 10 ^ p = scaled p x := by
    rw [Nat.mod_mod, Nat.mul_comm]
    exact Nat.div_add_mod _ _
  have hnumber : parseUnsigned K body = some (.fin ((scaled p x : K) / ((10 ^ p : ℕ) : K))) := by
    rw [parseUnsigned_of_point K hpoint, hbody, parseNumber_fixed, hvalue]
    rfl
  simp only [pyFloat, hstrip, hunder, hsign, hnumber, Option.bind_eq_bind, Option.bind_some,
    Option.map_some, printed]
  cases x.negative with
  | false => rfl
  | true => rfl

theorem abs_printed_sub (p : ℕ) (x : FiniteFloat) :
    |printed ℚ p x - x.value| ≤ 1 / 2 / (10 ^ p : ℕ) := by
  rw [printed, FiniteFloat.value, abs_signed_sub]
  exact abs_scaled_sub p x

example : pyFloat ℚ "-1_0.25e1 ".toList = some (.fin (-102.5)) := by decide +kernel
example : pyFloat ℚ "1.2.3".toList = none := by decide +kernel

end PyDecimal
