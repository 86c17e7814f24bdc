import Mathlib.Data.List.DropRight
import Mathlib.Data.List.TakeWhile

/-!
# Python text

Text is a list of characters. `strip` removes a set of characters from both
ends, `splitOnce` is `str.split(sep, 1)`, and `fileLines` are the lines a text
file yields when iterated: universal newlines are translated and every line
keeps its newline. `Dict` is a dictionary of texts, where setting a key again
replaces its value.
-/

abbrev Text := List Char

namespace PyText

/-! ### Stripping and splitting -/

/-- The characters `str.strip()` removes. -/
def isSpace (c : Char) : Bool :=
  let n := c.toNat
  (9 ≤ n && n ≤ 13) || (28 ≤ n && n ≤ 32) || n == 0x85 || n == 0xA0 || n == 0x1680 ||
    (0x2000 ≤ n && n ≤ 0x200A) || n == 0x2028 || n == 0x2029 || n == 0x202F || n == 0x205F ||
    n == 0x3000

def strip (p : Char → Bool) (t : Text) : Text := (t.dropWhile p).rdropWhile p

/-- The text before the first `sep`, and the text after it. -/
def splitOnce (sep : Char) (t : Text) : Text × Text :=
  (t.takeWhile (· ≠ sep), (t.dropWhile (· ≠ sep)).tail)

theorem strip_eq_self {p : Char → Bool} {t : Text} (h : ∀ c ∈ t, p c = false) : strip p t = t := by
  have hdrop : t.dropWhile p = t := by
    rw [List.dropWhile_eq_self_iff]
    intro hpos
    simp only [h _ (List.getElem_mem hpos), Bool.false_eq_true, not_false_iff]
  rw [strip, hdrop, List.rdropWhile_eq_self_iff]
  intro hne
  simp only [h _ (List.getLast_mem hne), Bool.false_eq_true, not_false_iff]

theorem strip_cons {p : Char → Bool} {c : Char} (hc : p c = true) (t : Text) :
    strip p (c :: t) = strip p t := by
  simp only [strip, List.dropWhile_cons, hc, if_true]

/-- A trailing character of the set is removed from a text that starts outside
the set. -/
theorem strip_concat {p : Char → Bool} {a c : Char} (ha : p a = false) (hc : p c = true) (t : Text) :
    strip p (a :: t ++ [c]) = (a :: t).rdropWhile p := by
  simp only [strip, List.cons_append, List.dropWhile_cons, ha, Bool.false_eq_true, if_false]
  rw [← List.cons_append, List.rdropWhile_concat_pos _ _ _ hc]

theorem takeWhile_ne {sep : Char} {t : Text} (h : sep ∉ t) : t.takeWhile (· ≠ sep) = t := by
  rw [List.takeWhile_eq_self_iff]
  intro c hc
  have hne : c ≠ sep := by
    rintro rfl
    exact h hc
  simpa using hne

theorem splitOnce_append {sep : Char} {a : Text} (h : sep ∉ a) (b : Text) :
    splitOnce sep (a ++ sep :: b) = (a, b) := by
  have hall : ∀ c ∈ a, (decide (c ≠ sep)) = true := by
    intro c hc
    have hne : c ≠ sep := by
      rintro rfl
      exact h hc
    simpa using hne
  rw [splitOnce, List.takeWhile_append_of_pos hall, List.dropWhile_append_of_pos hall]
  simp

/-! ### Lines of a file -/

/-- Universal newlines: `\r\n` and `\r` are read as `\n`. -/
def translateNewlines : Text → Text
  | [] => []
  | '\r' :: '\n' :: t => '\n' :: translateNewlines t
  | '\r' :: t => '\n' :: translateNewlines t
  | c :: t => c :: translateNewlines t

/-- Lines with their terminating newline. -/
def lines : Text → List Text
  | [] => []
  | c :: t =>
    if c = '\n' then [c] :: lines t
    else
      match lines t with
      | [] => [[c]]
      | l :: ls => (c :: l) :: ls

def fileLines (t : Text) : List Text := lines (translateNewlines t)

theorem translateNewlines_cons {c : Char} (hc : c ≠ '\r') (t : Text) :
    translateNewlines (c :: t) = c :: translateNewlines t := by
  rw [translateNewlines]
  · intro t' h
    exact absurd h hc
  · intro h
    exact absurd h hc

theorem translateNewlines_cr {c : Char} (hc : c ≠ '\n') (t : Text) :
    translateNewlines ('\r' :: c :: t) = '\n' :: translateNewlines (c :: t) := by
  rw [translateNewlines]
  rintro t' ⟨rfl⟩
  exact hc rfl

/-- A newline ends the translation of what stands before it. -/
theorem translateNewlines_append (a b : Text) :
    translateNewlines (a ++ '\n' :: b) = translateNewlines (a ++ ['\n']) ++ translateNewlines b := by
  fun_induction translateNewlines a with
  | case1 => simp [translateNewlines]
  | case2 t ih => simp only [List.cons_append, translateNewlines, ih]
  | case3 t hne ih =>
    cases t with
    | nil => simp [translateNewlines]
    | cons c t =>
      have hc : c ≠ '\n' := by
        rintro rfl
        exact hne t rfl
      simp only [List.cons_append] at ih ⊢
      rw [translateNewlines_cr hc, translateNewlines_cr hc, ih, List.cons_append]
  | case4 c t _ hr ih =>
    simp only [List.cons_append]
    rw [translateNewlines_cons hr, translateNewlines_cons hr, ih, List.cons_append]

theorem translateNewlines_eq_self {t : Text} (h : '\r' ∉ t) : translateNewlines t = t := by
  induction t with
  | nil => rfl
  | cons c t ih =>
    have hc : c ≠ '\r' := by
      rintro rfl
      exact h List.mem_cons_self
    rw [translateNewlines_cons hc, ih fun ht => h (List.mem_cons_of_mem c ht)]

theorem translateNewlines_concat (a : Text) :
    ∃ a', translateNewlines (a ++ ['\n']) = a' ++ ['\n'] := by
  fun_induction translateNewlines a with
  | case1 => exact ⟨[], rfl⟩
  | case2 t ih =>
    obtain ⟨a', h⟩ := ih
    exact ⟨'\n' :: a', by simp only [List.cons_append, translateNewlines, h]⟩
  | case3 t hne ih =>
    cases t with
    | nil => exact ⟨[], rfl⟩
    | cons c t =>
      have hc : c ≠ '\n' := by
        rintro rfl
        exact hne t rfl
      obtain ⟨a', h⟩ := ih
      refine ⟨'\n' :: a', ?_⟩
      simp only [List.cons_append] at h ⊢
      rw [translateNewlines_cr hc, h]
  | case4 c t _ hr ih =>
    obtain ⟨a', h⟩ := ih
    refine ⟨c :: a', ?_⟩
    simp only [List.cons_append]
    rw [translateNewlines_cons hr, h]

theorem lines_append (a b : Text) : lines (a ++ '\n' :: b) = lines (a ++ ['\n']) ++ lines b := by
  induction a with
  | nil => simp [lines]
  | cons c a ih =>
    simp only [List.cons_append, lines, ih]
    split_ifs with hc
    · rfl
    · -- the rest ends in a newline, so it has a first line
      have hne : lines (a ++ ['\n']) ≠ [] := by
        cases a with
        | nil => simp [lines]
        | cons d a =>
          simp only [List.cons_append, lines]
          split_ifs
          · exact List.cons_ne_nil _ _
          · split <;> exact List.cons_ne_nil _ _
      cases hl : lines (a ++ ['\n']) with
      | nil => exact absurd hl hne
      | cons l ls => rfl

theorem lines_line {a : Text} (h : '\n' ∉ a) : lines (a ++ ['\n']) = [a ++ ['\n']] := by
  induction a with
  | nil => rfl
  | cons c a ih =>
    have hc : c ≠ '\n' := by
      rintro rfl
      exact h List.mem_cons_self
    simp only [List.cons_append, lines, if_neg hc, ih fun ha => h (List.mem_cons_of_mem c ha)]

/-- Whatever stands before a newline, the text after it is read on its own. -/
theorem fileLines_append (a b : Text) :
    fileLines (a ++ '\n' :: b) = fileLines (a ++ ['\n']) ++ fileLines b := by
  obtain ⟨a', ha⟩ := translateNewlines_concat a
  rw [fileLines, translateNewlines_append, ha, List.append_assoc, List.singleton_append,
    lines_append, ← ha]
  rfl

theorem fileLines_line {a : Text} (hn : '\n' ∉ a) (hr : '\r' ∉ a) :
    fileLines (a ++ ['\n']) = [a ++ ['\n']] := by
  have hcr : '\r' ∉ a ++ ['\n'] := by
    simp only [List.mem_append, List.mem_singleton, not_or]
    exact ⟨hr, by decide⟩
  rw [fileLines, translateNewlines_eq_self hcr, lines_line hn]

/-! ### Dictionaries -/

abbrev Dict := List (Text × Text)

def Dict.get? (d : Dict) (key : Text) : Option Text := d.lookup key

/-- `d[key] = value`. -/
def Dict.set (d : Dict) (key value : Text) : Dict := (key, value) :: d.filter (·.1 ≠ key)

theorem Dict.get?_set_self (d : Dict) (key value : Text) :
    (d.set key value).get? key = some value := by
  simp [Dict.get?, Dict.set]

theorem lookup_filter_ne (d : Dict) {key key' : Text} (h : (key' == key) = false) :
    (d.filter (·.1 ≠ key)).lookup key' = d.lookup key' := by
  induction d with
  | nil => rfl
  | cons e d ih =>
    obtain ⟨k, v⟩ := e
    by_cases hk : k = key
    · rw [List.filter_cons_of_neg (by simpa using hk), ih, List.lookup_cons, hk, h]
    · rw [List.filter_cons_of_pos (by simpa using hk), List.lookup_cons, List.lookup_cons, ih]

theorem Dict.get?_set_of_ne (d : Dict) {key key' : Text} (h : key' ≠ key) (value : Text) :
    (d.set key value).get? key' = d.get? key' := by
  have hb : (key' == key) = false := by simpa using h
  rw [Dict.get?, Dict.set, List.lookup_cons, hb]
  exact lookup_filter_ne d hb

end PyText
