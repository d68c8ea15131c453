import Mathlib.Data.List.TakeWhile
import Wdb2ts.ProviderText

/-!
# The token reader of the database setup

A `TokenReader` collects the bytes before the next byte of a set.  A comment runs from its first
byte to the end of the line, also inside of quotes.  The cursor is the text that is left, and the
position `npos` is the empty rest.
-/

namespace Wdb2ts

namespace miutil.pgpool

/-- `TokenReader`. -/
structure TokenReader where
  rest : Bytes
  lineCount : ℤ

namespace TokenReader

/-- The comment character. -/
def comment : Byte := Bytes.chr '#'

/-- `TokenReader::skip`. -/
def skip (reader : TokenReader) (skipset : Bytes) : TokenReader :=
  { reader with rest := reader.rest.dropWhile skipset.contains }

/-- `TokenReader::skipComment`. -/
def skipComment (reader : TokenReader) : TokenReader :=
  if reader.rest.head? = some comment then
    { reader with rest := reader.rest.dropWhile fun byte => byte ≠ Bytes.chr '\n' }
  else reader

/-- A space or a tabulator. -/
def isBlank (byte : Byte) : Bool := byte = Bytes.chr ' ' ∨ byte = Bytes.chr '\t'

/-- The second loop of `firstOf`.  A line end of the set is counted too. -/
def collect (chSet : Bytes) : Bytes → (lineCount : ℤ) → (out : Bytes) → Bytes × TokenReader
  | [], lineCount, out => (out, ⟨[], lineCount⟩)
  | byte :: rest, lineCount, out =>
      if byte = comment then (out, ⟨byte :: rest, lineCount⟩)
      else
        let lineCount := if byte = Bytes.chr '\n' then lineCount + 1 else lineCount
        if chSet.contains byte then (out, ⟨byte :: rest, lineCount⟩)
        else collect chSet rest lineCount (out ++ [byte])

/-- The bytes before the end of `firstOf`, whether it ended at a comment, and the reader. -/
structure Collected where
  out : Bytes
  lastWasComment : Bool
  reader : TokenReader

/-- `TokenReader::firstOf`. -/
def firstOf (reader : TokenReader) (chSet : Bytes) : Collected :=
  let hasNewline := chSet.contains (Bytes.chr '\n')
  let hasBlank := chSet.contains (Bytes.chr ' ') || chSet.contains (Bytes.chr '\t')
  if hasBlank && (reader.rest.head?.map isBlank).getD false then ⟨[], false, reader⟩
  else
    let blanks := reader.rest.takeWhile isBlank
    let collected := collect chSet (reader.rest.drop blanks.length) reader.lineCount blanks
    let isComment := collected.2.rest.head? = some comment
    ⟨collected.1, isComment && !hasNewline, collected.2.skipComment⟩

/-- The outcome of `getToken`, which returns false without a token. -/
structure Token where
  val : Bytes
  token : Option Byte
  lastWasComment : Bool
  reader : TokenReader

/-- `TokenReader::getToken`. -/
def getToken (reader : TokenReader) (chFirstof : Bytes) : Token :=
  let first := reader.firstOf chFirstof
  { val := trimstr (first.out.filter fun byte => byte ≠ Bytes.chr '\n') blanks
    token := first.reader.rest.head?
    lastWasComment := first.lastWasComment
    reader := { first.reader with rest := first.reader.rest.tail } }

/-! ## What is read -/

/-- A text without a line end and without a comment character. -/
def IsClean (text : Bytes) : Prop := Bytes.chr '\n' ∉ text ∧ comment ∉ text

theorem isClean_nil : IsClean [] := ⟨List.not_mem_nil, List.not_mem_nil⟩

/-- The loop of `firstOf` collects no comment and never goes back. -/
theorem collect_spec (chSet rest : Bytes) (lineCount : ℤ) {out : Bytes}
    (noComment : comment ∉ out) :
    comment ∉ (collect chSet rest lineCount out).1 ∧
      (collect chSet rest lineCount out).2.rest.length ≤ rest.length := by
  induction rest generalizing lineCount out with
  | nil => exact ⟨noComment, le_rfl⟩
  | cons byte others ih =>
      simp only [collect]
      split
      · exact ⟨noComment, le_rfl⟩
      · rename_i notComment
        split
        · exact ⟨noComment, le_rfl⟩
        · have noCommentNext : comment ∉ out ++ [byte] := by
            rw [List.mem_append, List.mem_singleton, not_or]
            exact ⟨noComment, Ne.symm notComment⟩
          have next := ih (if byte = Bytes.chr '\n' then lineCount + 1 else lineCount) noCommentNext
          exact ⟨next.1, next.2.trans (Nat.le_succ _)⟩

theorem skipComment_length_le (reader : TokenReader) :
    reader.skipComment.rest.length ≤ reader.rest.length := by
  rw [skipComment]
  split
  · exact (List.dropWhile_sublist _).length_le
  · exact le_rfl

theorem comment_notMem_takeWhile_isBlank (text : Bytes) : comment ∉ text.takeWhile isBlank :=
  fun member => absurd (List.mem_takeWhile_imp member) (by decide)

theorem firstOf_spec (reader : TokenReader) (chSet : Bytes) :
    comment ∉ (reader.firstOf chSet).out ∧
      (reader.firstOf chSet).reader.rest.length ≤ reader.rest.length := by
  simp only [firstOf]
  split
  · exact ⟨List.not_mem_nil, le_rfl⟩
  · have collected := collect_spec chSet (reader.rest.drop (reader.rest.takeWhile isBlank).length)
      reader.lineCount (comment_notMem_takeWhile_isBlank reader.rest)
    refine ⟨collected.1, (skipComment_length_le _).trans (collected.2.trans ?_)⟩
    rw [List.length_drop]
    exact Nat.sub_le _ _

/-- The text before a token is clean. -/
theorem isClean_getToken (reader : TokenReader) (chFirstof : Bytes) :
    IsClean (reader.getToken chFirstof).val := by
  constructor
  · intro member
    have kept := List.mem_filter.mp (Bytes.mem_of_mem_trimBy member)
    simp at kept
  · intro member
    have kept := List.mem_filter.mp (Bytes.mem_of_mem_trimBy member)
    exact (firstOf_spec reader chFirstof).1 kept.1

/-- A token takes at least its own byte. -/
theorem getToken_lt (reader : TokenReader) (chFirstof : Bytes) {token : Byte}
    (found : (reader.getToken chFirstof).token = some token) :
    (reader.getToken chFirstof).reader.rest.length < reader.rest.length := by
  have bound := (firstOf_spec reader chFirstof).2
  simp only [getToken] at found ⊢
  cases rest : (reader.firstOf chFirstof).reader.rest with
  | nil =>
      rw [rest] at found
      cases found
  | cons byte others =>
      rw [rest] at bound
      exact bound

/-! ## Reading what was written -/

/-- The text ends, or a token of the set comes next. -/
def StopsAt (chSet rest : Bytes) : Prop :=
  ∀ byte, rest.head? = some byte → byte ∈ chSet ∧ byte ≠ comment

/-- The loop collects a text without a byte of the set. -/
theorem collect_append {chSet text rest : Bytes} (noComment : comment ∉ text)
    (outside : ∀ byte ∈ text, byte ∉ chSet) (stops : StopsAt chSet rest) (lineCount : ℤ)
    (out : Bytes) :
    ∃ lines, collect chSet (text ++ rest) lineCount out = (out ++ text, ⟨rest, lines⟩) := by
  induction text generalizing lineCount out with
  | nil =>
      rw [List.nil_append, List.append_nil]
      cases rest with
      | nil => exact ⟨lineCount, rfl⟩
      | cons stop others =>
          rw [collect, if_neg (stops stop rfl).2]
          simp only [List.contains_iff_mem.mpr (stops stop rfl).1, if_true]
          exact ⟨_, rfl⟩
  | cons byte others ih =>
      rw [List.mem_cons, not_or] at noComment
      rw [List.forall_mem_cons] at outside
      have notInSet : chSet.contains byte = false := by
        rw [← Bool.not_eq_true, List.contains_iff_mem]
        exact outside.1
      rw [List.cons_append, collect, if_neg (Ne.symm noComment.1)]
      simp only [notInSet, Bool.false_eq_true, if_false]
      rcases ih noComment.2 outside.2 (if byte = Bytes.chr '\n' then lineCount + 1 else lineCount)
        (out ++ [byte]) with ⟨lines, collected⟩
      exact ⟨lines, by rw [collected, List.append_assoc, List.singleton_append]⟩

theorem takeWhile_append {text rest : Bytes}
    (notBlank : ∀ byte, rest.head? = some byte → isBlank byte = false) :
    (text ++ rest).takeWhile isBlank = text.takeWhile isBlank := by
  have nothing : rest.takeWhile isBlank = [] := by
    cases rest with
    | nil => rfl
    | cons byte others => rw [List.takeWhile_cons, notBlank byte rfl, if_neg Bool.false_ne_true]
  rw [List.takeWhile_append, nothing, List.append_nil]
  split
  · rename_i allBlank
    exact ((List.takeWhile_prefix isBlank).eq_of_length allBlank).symm
  · rfl

theorem firstOf_append {chSet text rest : Bytes} (noBlank : ∀ byte ∈ chSet, isBlank byte = false)
    (noComment : comment ∉ text) (outside : ∀ byte ∈ text, byte ∉ chSet)
    (stops : StopsAt chSet rest) (lineCount : ℤ) :
    ∃ lines, firstOf ⟨text ++ rest, lineCount⟩ chSet = ⟨text, false, ⟨rest, lines⟩⟩ := by
  have noSpace : chSet.contains (Bytes.chr ' ') = false := by
    rw [← Bool.not_eq_true, List.contains_iff_mem]
    exact fun member => absurd (noBlank _ member) (by decide)
  have noTab : chSet.contains (Bytes.chr '\t') = false := by
    rw [← Bool.not_eq_true, List.contains_iff_mem]
    exact fun member => absurd (noBlank _ member) (by decide)
  have front : (text ++ rest).takeWhile isBlank = text.takeWhile isBlank :=
    takeWhile_append fun byte next => noBlank byte (stops byte next).1
  have behind : (text ++ rest).drop (text.takeWhile isBlank).length =
      text.dropWhile isBlank ++ rest := by
    have parts : text ++ rest = text.takeWhile isBlank ++ (text.dropWhile isBlank ++ rest) := by
      rw [← List.append_assoc, List.takeWhile_append_dropWhile]
    rw [parts, List.drop_left]
  have notComment : rest.head? ≠ some comment := fun next => (stops comment next).2 rfl
  have noCommentBehind : comment ∉ text.dropWhile isBlank :=
    fun member => noComment ((List.dropWhile_sublist _).subset member)
  have outsideBehind : ∀ byte ∈ text.dropWhile isBlank, byte ∉ chSet :=
    fun byte member => outside byte ((List.dropWhile_sublist _).subset member)
  rcases collect_append noCommentBehind outsideBehind stops lineCount (text.takeWhile isBlank) with
    ⟨lines, collected⟩
  refine ⟨lines, ?_⟩
  simp only [firstOf, noSpace, noTab, Bool.or_false, Bool.false_and, Bool.false_eq_true, if_false,
    front, behind, collected, List.takeWhile_append_dropWhile, notComment, decide_false,
    skipComment]

/-- The text before a token is read as a whole when no blank is a token. -/
theorem getToken_append {chSet text rest : Bytes} (noBlank : ∀ byte ∈ chSet, isBlank byte = false)
    (noComment : comment ∉ text) (outside : ∀ byte ∈ text, byte ∉ chSet)
    (stops : StopsAt chSet rest) (lineCount : ℤ) :
    ∃ lines, getToken ⟨text ++ rest, lineCount⟩ chSet =
      { val := trimstr (text.filter fun byte => byte ≠ Bytes.chr '\n') blanks
        token := rest.head?
        lastWasComment := false
        reader := ⟨rest.tail, lines⟩ } := by
  rcases firstOf_append noBlank noComment outside stops lineCount with ⟨lines, first⟩
  exact ⟨lines, by rw [getToken, first]⟩

end TokenReader

end miutil.pgpool

end Wdb2ts
