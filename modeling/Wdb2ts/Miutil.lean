import Wdb2ts.Lib.Bytes

/-!
# String helpers

The string functions of `miutil` and of the standard library that the program uses on
names and on request parameters.
-/

namespace Wdb2ts

/-- `std::string::find` of one byte: the position of its first occurrence. -/
def findByte (text : Bytes) (byte : Byte) : Option ℕ := text.findIdx? fun other => other = byte

theorem findByte_eq_none {text : Bytes} {byte : Byte} (absent : byte ∉ text) :
    findByte text byte = none := by
  rw [findByte, List.findIdx?_eq_none_iff]
  intro other member
  rw [decide_eq_false_iff_not]
  rintro rfl
  exact absent member

theorem findByte_append {text : Bytes} {byte : Byte} (absent : byte ∉ text) (rest : Bytes) :
    findByte (text ++ byte :: rest) byte = some text.length := by
  have notInText := findByte_eq_none absent
  rw [findByte] at notInText ⊢
  rw [List.findIdx?_append, notInText]
  simp [List.findIdx?_cons]

/-- `std::string::find` of a string: the position of its first occurrence. -/
def findText (pattern : Bytes) : Bytes → Option ℕ
  | [] => if pattern.isEmpty then some 0 else none
  | byte :: rest =>
      if pattern.isPrefixOf (byte :: rest) then some 0
      else (findText pattern rest).map (· + 1)

/-- The lines that `getline` extracts from a stream. -/
def getlines : Bytes → (line : Bytes) → List Bytes
  | [], line => if line.isEmpty then [] else [line]
  | byte :: rest, line =>
      if byte = Bytes.chr '\n' then line :: getlines rest [] else getlines rest (line ++ [byte])

theorem getlines_append {text : Bytes} (oneLine : Bytes.chr '\n' ∉ text) (rest line : Bytes) :
    getlines (text ++ Bytes.chr '\n' :: rest) line = (line ++ text) :: getlines rest [] := by
  induction text generalizing line with
  | nil => simp [getlines]
  | cons byte others ih =>
      rw [List.mem_cons, not_or] at oneLine
      rw [List.cons_append, getlines, if_neg (Ne.symm oneLine.1), ih oneLine.2, List.append_assoc,
        List.singleton_append]

/-- Every line is extracted. -/
theorem getlines_flatMap {lines : List Bytes} (oneLine : ∀ line ∈ lines, Bytes.chr '\n' ∉ line) :
    getlines (lines.flatMap fun line => line ++ Bytes.str "\n") [] = lines := by
  induction lines with
  | nil => rfl
  | cons line others ih =>
      rw [List.flatMap_cons, List.append_assoc]
      have first := getlines_append (oneLine line List.mem_cons_self)
        (others.flatMap fun line => line ++ Bytes.str "\n") []
      rw [ih fun other member => oneLine other (List.mem_cons_of_mem line member),
        List.nil_append] at first
      exact first

namespace miutil

/-- The default trim set of `trimstr`, `" \t\r\n"`. -/
def blanks : Bytes := [Bytes.chr ' ', Bytes.chr '\t', Bytes.chr '\r', Bytes.chr '\n']

/-- `trimstr` on both ends with a trim set. -/
def trimstr (text : Bytes) (trimset : Bytes) : Bytes :=
  text.trimBy fun byte => trimset.contains byte

/-- The loop of `splitstr`.  `previous` is the byte before, `inString` tells whether a
protected part is open, and `elem` is the element so far. -/
def splitLoop (sep stringProtector : Byte) :
    Bytes → (previous : Byte) → (inString : Bool) → (elem : Bytes) → List Bytes
  | [], _, _, elem => [trimstr elem blanks]
  | byte :: rest, previous, inString, elem =>
      if byte = stringProtector ∧ previous ≠ Bytes.chr '\\' then
        splitLoop sep stringProtector rest byte (!inString) (elem ++ [byte])
      else if inString then
        splitLoop sep stringProtector rest byte inString (elem ++ [byte])
      else if byte ≠ sep then
        splitLoop sep stringProtector rest byte inString (elem ++ [byte])
      else
        trimstr elem blanks :: splitLoop sep stringProtector rest byte inString []

/-- `splitstr`: the elements between the separators outside the protected parts, each
one trimmed. -/
def splitstr (text : Bytes) (sep stringProtector : Byte) : List Bytes :=
  splitLoop sep stringProtector text (Bytes.chr (Char.ofNat 0)) false []

/-! ## Splitting what was joined -/

/-- A text that `splitstr` hands over as it is. -/
def IsInert (sep stringProtector : Byte) (text : Bytes) : Prop :=
  ∀ byte ∈ text, byte ≠ sep ∧ byte ≠ stringProtector ∧ blanks.contains byte = false

variable {sep stringProtector : Byte}

theorem trimstr_of_isInert {text : Bytes} (inert : IsInert sep stringProtector text) :
    trimstr text blanks = text := by
  apply Bytes.trimBy_eq_self
  intro byte member
  exact (inert byte member).2.2

theorem splitLoop_of_isInert {text : Bytes} (inert : IsInert sep stringProtector text)
    (previous : Byte) (elem : Bytes) :
    splitLoop sep stringProtector text previous false elem = [trimstr (elem ++ text) blanks] := by
  induction text generalizing previous elem with
  | nil => simp [splitLoop]
  | cons byte rest ih =>
      have here := inert byte List.mem_cons_self
      have inertRest : IsInert sep stringProtector rest := fun other member =>
        inert other (List.mem_cons_of_mem byte member)
      simp only [splitLoop, here.1, here.2.1, false_and, if_false, Bool.false_eq_true, ne_eq,
        not_false_eq_true, if_true]
      rw [ih inertRest, List.append_assoc, List.singleton_append]

theorem splitLoop_append_sep {text : Bytes} (inert : IsInert sep stringProtector text)
    (different : sep ≠ stringProtector) (rest : Bytes) (previous : Byte) (elem : Bytes) :
    splitLoop sep stringProtector (text ++ sep :: rest) previous false elem =
      trimstr (elem ++ text) blanks :: splitLoop sep stringProtector rest sep false [] := by
  induction text generalizing previous elem with
  | nil => simp [splitLoop, different]
  | cons byte others ih =>
      have here := inert byte List.mem_cons_self
      have inertOthers : IsInert sep stringProtector others := fun other member =>
        inert other (List.mem_cons_of_mem byte member)
      simp only [List.cons_append, splitLoop, here.1, here.2.1, false_and, if_false,
        Bool.false_eq_true, ne_eq, not_false_eq_true, if_true]
      rw [ih inertOthers, List.append_assoc, List.singleton_append]

theorem splitLoop_join (different : sep ≠ stringProtector) {first : Bytes} {rest : List Bytes}
    (inert : ∀ elem ∈ first :: rest, IsInert sep stringProtector elem) (previous : Byte) :
    splitLoop sep stringProtector (first ++ rest.flatMap fun elem => sep :: elem) previous
      false [] = first :: rest := by
  induction rest generalizing first previous with
  | nil =>
      have inertFirst := inert first List.mem_cons_self
      rw [List.flatMap_nil, List.append_nil, splitLoop_of_isInert inertFirst, List.nil_append,
        trimstr_of_isInert inertFirst]
  | cons next others ih =>
      have inertFirst := inert first List.mem_cons_self
      have inertNext : ∀ elem ∈ next :: others, IsInert sep stringProtector elem :=
        fun elem member => inert elem (List.mem_cons_of_mem first member)
      rw [List.flatMap_cons, List.cons_append, splitLoop_append_sep inertFirst different,
        List.nil_append, trimstr_of_isInert inertFirst, ih inertNext]

/-- Splitting joined elements gives the elements, when all of them are inert. -/
theorem splitstr_join (different : sep ≠ stringProtector) {first : Bytes} {rest : List Bytes}
    (inert : ∀ elem ∈ first :: rest, IsInert sep stringProtector elem) :
    splitstr (first ++ rest.flatMap fun elem => sep :: elem) sep stringProtector =
      first :: rest :=
  splitLoop_join different inert _

end miutil

/-- `std::isspace` of the C locale. -/
def isSpace (byte : Byte) : Bool := byte.val = 32 ∨ (9 ≤ byte.val ∧ byte.val ≤ 13)

/-- `boost::algorithm::trim`. -/
def trim (text : Bytes) : Bytes := text.trimBy isSpace

end Wdb2ts
