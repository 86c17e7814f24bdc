import RtkLocalization.Lib.PyDecimal
import RtkLocalization.Msgs

/-!
# The map origin file

`map_origin_recorder.py` writes it and six hand-copied parsers with one body read
it line by line: text after `#` is a comment, the first colon separates key and
value, white space and quotes around the value are removed, and the last line
with a key wins. The recorder writes the free text `frame_id` before the numbers,
so nothing in it can reach them (`parse_originFileText`).
-/

namespace RtkLocalization

open PyText PyDecimal

/-! ### Reading -/

def isQuote (c : Char) : Bool := "'\"".toList.contains c

/-- One turn of the loop of `parse_flat_origin_file`. -/
def parseOriginLine (values : Dict) (rawLine : Text) : Dict :=
  let line := strip isSpace (splitOnce '#' rawLine).1
  if line = [] ∨ ':' ∉ line then values
  else
    let (key, value) := splitOnce ':' line
    values.set (strip isSpace key) (strip isQuote (strip isSpace value))

def parseFlatOriginFile (text : Text) : Dict := (fileLines text).foldl parseOriginLine []

/-! ### Writing -/

/-- What `_try_record` puts into the file. -/
structure OriginRecord where
  frameId : Text
  latitude : FiniteFloat
  longitude : FiniteFloat
  altitude : FiniteFloat
  yawEnu : FiniteFloat
  stamp : Stamp

def originHeader : Text :=
  ("# Generated by map_origin_recorder.py\n" ++
    "# yaw_enu follows ROS REP-103/robot_localization convention: 0=east, CCW positive.\n").toList

def originLine (key : String) (value : Text) : Text := key.toList ++ ": ".toList ++ value ++ ['\n']

def originFileText (r : OriginRecord) : Text :=
  originHeader
    ++ originLine "frame_id" r.frameId
    ++ originLine "latitude" (formatFixed 12 r.latitude)
    ++ originLine "longitude" (formatFixed 12 r.longitude)
    ++ originLine "altitude" (formatFixed 6 r.altitude)
    ++ originLine "yaw_enu" (formatFixed 12 r.yawEnu)
    ++ originLine "stamp_sec" (intText r.stamp.sec)
    ++ originLine "stamp_nanosec" (intText r.stamp.nanosec)

/-! ### A line with a plain key and a plain value -/

def isPlainChar (c : Char) : Bool :=
  !isSpace c && !isQuote c && c != '#' && c != ':'

structure Plain (t : Text) : Prop where
  nonempty : t ≠ []
  chars : ∀ c ∈ t, isPlainChar c = true

theorem plain_of_all {t : Text} (h : (!t.isEmpty && t.all isPlainChar) = true) : Plain t := by
  rw [Bool.and_eq_true, Bool.not_eq_true', List.isEmpty_eq_false_iff, List.all_eq_true] at h
  exact ⟨h.1, h.2⟩

theorem Plain.notMem {t : Text} (h : Plain t) {d : Char} (hd : isPlainChar d = false) : d ∉ t := by
  intro hmem
  exact Bool.false_ne_true (hd.symm.trans (h.chars d hmem))

theorem Plain.isSpace {t : Text} (h : Plain t) : ∀ c ∈ t, isSpace c = false := by
  intro c hc
  have hplain := h.chars c hc
  simp only [isPlainChar, Bool.and_eq_true, Bool.not_eq_true'] at hplain
  exact hplain.1.1.1

theorem Plain.isQuote {t : Text} (h : Plain t) : ∀ c ∈ t, isQuote c = false := by
  intro c hc
  have hplain := h.chars c hc
  simp only [isPlainChar, Bool.and_eq_true, Bool.not_eq_true'] at hplain
  exact hplain.1.1.2

theorem plain_of_isDecimalChar {t : Text} (hne : t ≠ []) (h : ∀ c ∈ t, isDecimalChar c = true) :
    Plain t where
  nonempty := hne
  chars := by
    intro c hc
    have hne : ∀ d, isDecimalChar d = false → c ≠ d := fun d => ne_of_isDecimalChar (h c hc)
    have hquote : isQuote c = false := by
      simp [isQuote, hne '\'' (by decide), hne '"' (by decide)]
    simp only [isPlainChar, isSpace_of_isDecimalChar (h c hc), hquote, Bool.not_false, Bool.true_and,
      Bool.and_eq_true, bne_iff_ne]
    exact ⟨hne '#' (by decide), hne ':' (by decide)⟩

theorem parseOriginLine_plain (values : Dict) {key : String} {value : Text}
    (hkey : Plain key.toList) (hvalue : Plain value) :
    parseOriginLine values (originLine key value) = values.set key.toList value := by
  set line := key.toList ++ ':' :: ' ' :: value with hline
  have hraw : originLine key value = line ++ ['\n'] := by
    simp [originLine, hline]
  have hcomment : '#' ∉ line ++ ['\n'] := by
    have hk := hkey.notMem (d := '#') (by decide)
    have hv := hvalue.notMem (d := '#') (by decide)
    simp only [hline, List.mem_append, List.mem_cons, List.not_mem_nil, or_false, not_or]
    exact ⟨⟨hk, by decide, by decide, hv⟩, by decide⟩
  -- the newline is stripped, the last character of the value is not
  have hstrip : strip isSpace (line ++ ['\n']) = line := by
    obtain ⟨a, rest, hcons⟩ := List.exists_cons_of_ne_nil hkey.nonempty
    have ha : isSpace a = false := hkey.isSpace a (by rw [hcons]; exact List.mem_cons_self)
    have hlast : line.rdropWhile isSpace = line := by
      rw [List.rdropWhile_eq_self_iff]
      intro hne
      have hmem : line.getLast hne ∈ value := by
        have happ : line = (key.toList ++ [':', ' ']) ++ value := by simp [hline]
        simp only [happ]
        rw [List.getLast_append_of_ne_nil _ hvalue.nonempty]
        exact List.getLast_mem _
      rw [hvalue.isSpace _ hmem]
      exact Bool.false_ne_true
    have hhead : line = a :: (rest ++ ':' :: ' ' :: value) := by rw [hline, hcons]; rfl
    rw [hhead] at hlast ⊢
    rw [strip_concat ha (by decide), hlast]
  have hne : line ≠ [] := List.append_ne_nil_of_left_ne_nil hkey.nonempty _
  have hcolon : ':' ∈ line := List.mem_append_right _ List.mem_cons_self
  have hsplit : splitOnce ':' line = (key.toList, ' ' :: value) :=
    splitOnce_append (hkey.notMem (by decide)) _
  have hval : strip isQuote (strip isSpace (' ' :: value)) = value := by
    rw [strip_cons (by decide), strip_eq_self hvalue.isSpace, strip_eq_self hvalue.isQuote]
  have hfirst : (splitOnce '#' (line ++ ['\n'])).1 = line ++ ['\n'] := takeWhile_ne hcomment
  simp only [parseOriginLine, hraw, hfirst, hstrip, hne, hcolon, not_true_eq_false, or_self,
    if_false, hsplit, hval, strip_eq_self hkey.isSpace]

/-! ### The round trip -/

def EndsInNewline (t : Text) : Prop := ∃ a : Text, t = a ++ ['\n']

theorem endsInNewline_originLine (t : Text) (key : String) (value : Text) :
    EndsInNewline (t ++ originLine key value) :=
  ⟨t ++ (key.toList ++ ": ".toList ++ value), by simp [originLine]⟩

theorem fileLines_originLine {key : String} {value : Text} (hkey : Plain key.toList)
    (hvalue : Plain value) : fileLines (originLine key value) = [originLine key value] := by
  have hnot : ∀ d, isPlainChar d = false → d ∉ ": ".toList →
      d ∉ key.toList ++ ": ".toList ++ value := by
    intro d hd hsep hmem
    simp only [List.mem_append] at hmem
    rcases hmem with (hk | hs) | hv
    · exact hkey.notMem hd hk
    · exact hsep hs
    · exact hvalue.notMem hd hv
  exact fileLines_line (hnot '\n' (by decide) (by decide)) (hnot '\r' (by decide) (by decide))

/-- A line with a plain key and value is read as it was written, whatever stands
before it. -/
theorem parse_append_originLine {t : Text} (ht : EndsInNewline t) {key : String} {value : Text}
    (hkey : Plain key.toList) (hvalue : Plain value) :
    parseFlatOriginFile (t ++ originLine key value)
      = (parseFlatOriginFile t).set key.toList value := by
  obtain ⟨a, rfl⟩ := ht
  rw [parseFlatOriginFile, List.append_assoc, List.singleton_append, fileLines_append,
    fileLines_originLine hkey hvalue, List.foldl_append, List.foldl_cons, List.foldl_nil,
    parseOriginLine_plain _ hkey hvalue]
  rfl

theorem plain_formatFixed (p : ℕ) (x : FiniteFloat) : Plain (formatFixed p x) :=
  plain_of_isDecimalChar (formatFixed_ne_nil p x) (isDecimalChar_of_mem_formatFixed p x)

theorem plain_intText (z : ℤ) : Plain (intText z) :=
  plain_of_isDecimalChar (intText_ne_nil z) (isDecimalChar_of_mem_intText z)

theorem parse_originFileText_eq (r : OriginRecord) :
    ∃ d : Dict, parseFlatOriginFile (originFileText r) =
      ((((((d.set "latitude".toList (formatFixed 12 r.latitude)).set
        "longitude".toList (formatFixed 12 r.longitude)).set
        "altitude".toList (formatFixed 6 r.altitude)).set
        "yaw_enu".toList (formatFixed 12 r.yawEnu)).set
        "stamp_sec".toList (intText r.stamp.sec)).set
        "stamp_nanosec".toList (intText r.stamp.nanosec)) := by
  refine ⟨parseFlatOriginFile (originHeader ++ originLine "frame_id" r.frameId), ?_⟩
  have h0 := endsInNewline_originLine originHeader "frame_id" r.frameId
  rw [originFileText,
    parse_append_originLine (endsInNewline_originLine _ _ _) (plain_of_all rfl) (plain_intText _),
    parse_append_originLine (endsInNewline_originLine _ _ _) (plain_of_all rfl) (plain_intText _),
    parse_append_originLine (endsInNewline_originLine _ _ _) (plain_of_all rfl)
      (plain_formatFixed _ _),
    parse_append_originLine (endsInNewline_originLine _ _ _) (plain_of_all rfl)
      (plain_formatFixed _ _),
    parse_append_originLine (endsInNewline_originLine _ _ _) (plain_of_all rfl)
      (plain_formatFixed _ _),
    parse_append_originLine h0 (plain_of_all rfl) (plain_formatFixed _ _)]

/-- The value read back from the text of `x` with `p` decimals. -/
def ReadsBack (p : ℕ) (x : FiniteFloat) (bound : ℚ) : Prop :=
  ∃ d : ℚ, pyFloat ℚ (formatFixed p x) = some (.fin d) ∧ |d - x.value| ≤ bound

theorem readsBack (p : ℕ) (x : FiniteFloat) {bound : ℚ} (h : 1 / 2 / (10 ^ p : ℕ) ≤ bound) :
    ReadsBack p x bound :=
  ⟨printed ℚ p x, pyFloat_formatFixed ℚ p x, (abs_printed_sub p x).trans h⟩

/-- Whatever the frame id contains, the parser returns the texts that were
formatted for the numbers, and these denote the recorded values up to half a unit
of the last decimal. -/
theorem parse_originFileText (r : OriginRecord) :
    let values := parseFlatOriginFile (originFileText r)
    values.get? "latitude".toList = some (formatFixed 12 r.latitude) ∧
    values.get? "longitude".toList = some (formatFixed 12 r.longitude) ∧
    values.get? "altitude".toList = some (formatFixed 6 r.altitude) ∧
    values.get? "yaw_enu".toList = some (formatFixed 12 r.yawEnu) ∧
    values.get? "stamp_sec".toList = some (intText r.stamp.sec) ∧
    values.get? "stamp_nanosec".toList = some (intText r.stamp.nanosec) ∧
    ReadsBack 12 r.latitude 5e-13 ∧ ReadsBack 12 r.longitude 5e-13 ∧
    ReadsBack 12 r.yawEnu 5e-13 ∧ ReadsBack 6 r.altitude 5e-7 := by
  intro values
  obtain ⟨d, hd⟩ := parse_originFileText_eq r
  have hbound : ∀ x, ReadsBack 12 x 5e-13 := fun x => readsBack 12 x (by norm_num)
  refine ⟨?_, ?_, ?_, ?_, ?_, ?_, hbound _, hbound _, hbound _, readsBack 6 _ (by norm_num)⟩
  all_goals
    simp only [values, hd]
    repeat rw [Dict.get?_set_of_ne _ (by decide)]
    exact Dict.get?_set_self _ _ _

end RtkLocalization
