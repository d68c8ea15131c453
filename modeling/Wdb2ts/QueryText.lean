import Wdb2ts.StreamRefinement

/-!
# The text of a query

A query is written over several lines in the configuration.  Its text is put on one line with
single spaces, and it is empty only when nothing but blanks is written.
-/

namespace Wdb2ts

namespace miutil

/-- The buffer of `compresSpace`: what is compressed, and what is searched next. -/
structure CompressState where
  done : Bytes
  rest : Bytes

/-- A round of the loop of `compresSpace`. -/
def CompressState.round (space : Bytes) (state : CompressState) : CompressState ⊕ Bytes :=
  let word := state.done ++ state.rest.takeWhile fun byte => !space.contains byte
  match (state.rest.dropWhile fun byte => !space.contains byte).dropWhile space.contains with
  | [] => .inr word
  | next :: rest =>
      if next = Bytes.chr '\n' ∨ word.getLast? = some (Bytes.chr '\n') ∨ word = [] then
        .inl ⟨word ++ [next], rest⟩
      else .inl ⟨word ++ [Bytes.chr ' '], next :: rest⟩

/-- `compresSpace`, or `none` if the loop does not end within a round for each byte. -/
def compresSpace (buf : Bytes) (newlineAsSpace : Bool) : Option Bytes :=
  let space := [Bytes.chr ' ', Bytes.chr '\t', Bytes.chr '\r'] ++
    if newlineAsSpace then [Bytes.chr '\n'] else []
  WhileLoop.runUntil (CompressState.round space) (buf.length + 1) ⟨[], buf⟩

/-- What stands behind the next spaces is shorter. -/
theorem length_behindSpaces_lt {space rest : Bytes}
    (goesOn : (rest.dropWhile fun byte => !space.contains byte).dropWhile space.contains ≠ []) :
    ((rest.dropWhile fun byte => !space.contains byte).dropWhile space.contains).length <
      rest.length := by
  have shorter := List.length_dropWhile_le (fun byte => !space.contains byte) rest
  cases spaces : rest.dropWhile fun byte => !space.contains byte with
  | nil =>
      rw [spaces] at goesOn
      exact absurd rfl goesOn
  | cons first others =>
      have isSpace : space.contains first = true := by
        have notFirst := List.dropWhile_get_zero_not (fun byte => !space.contains byte) rest
          (spaces ▸ Nat.succ_pos others.length)
        simpa only [spaces, List.get_eq_getElem, List.getElem_cons_zero, Bool.not_eq_true',
          Bool.not_eq_false] using notFirst
      rw [spaces] at shorter
      rw [List.dropWhile_cons_of_pos isSpace]
      have fewer := List.length_dropWhile_le space.contains others
      rw [List.length_cons] at shorter
      omega

/-- The bytes of the buffer that are no space stay. -/
def CompressState.Keeps (space buf : Bytes) (state : CompressState) : Prop :=
  ∀ byte ∈ buf, byte ∉ space → byte ∈ state.done ++ state.rest

theorem CompressState.Keeps.round {space buf : Bytes} {state : CompressState}
    (keeps : state.Keeps space buf) :
    WhileLoop.Round (CompressState.Keeps space buf) (fun state => state.rest.length)
      (fun result => ∀ byte ∈ buf, byte ∉ space → byte ∈ result) state (state.round space) := by
  have kept : ∀ byte ∈ buf, byte ∉ space →
      byte ∈ state.done ++ (state.rest.takeWhile fun byte => !space.contains byte) ∨
        byte ∈ (state.rest.dropWhile fun byte => !space.contains byte).dropWhile
          space.contains := by
    intro byte member notSpace
    have inBuffer := keeps byte member notSpace
    rw [← List.takeWhile_append_dropWhile (p := fun byte => !space.contains byte)
      (l := state.rest), ← List.append_assoc, List.mem_append] at inBuffer
    rcases inBuffer with before | behind
    · exact Or.inl before
    · rw [← List.takeWhile_append_dropWhile (p := space.contains)
        (l := state.rest.dropWhile fun byte => !space.contains byte), List.mem_append] at behind
      rcases behind with skipped | behind
      · exact absurd (List.contains_iff_mem.mp (List.mem_takeWhile_imp skipped)) notSpace
      · exact Or.inr behind
  rw [CompressState.round]
  split
  · next ends =>
      intro byte member notSpace
      have placed := kept byte member notSpace
      rw [ends] at placed
      simpa using placed
  · next next rest goesOn =>
      have less := length_behindSpaces_lt (goesOn ▸ List.cons_ne_nil next rest)
      rw [goesOn] at kept less
      split
      · constructor
        · intro byte member notSpace
          rw [List.append_assoc]
          exact List.mem_append.mpr (kept byte member notSpace)
        · exact Nat.lt_of_succ_lt less
      · constructor
        · intro byte member notSpace
          rcases kept byte member notSpace with before | behind
          · exact List.mem_append_left _ (List.mem_append_left _ before)
          · exact List.mem_append_right _ behind
        · exact less

/-- `compresSpace` returns, and keeps the bytes that are no space. -/
theorem compresSpace_keeps (buf : Bytes) (newlineAsSpace : Bool) :
    ∃ result, compresSpace buf newlineAsSpace = some result ∧
      ∀ byte ∈ buf, byte ∉ blanks → byte ∈ result := by
  have start : CompressState.Keeps ([Bytes.chr ' ', Bytes.chr '\t', Bytes.chr '\r'] ++
      if newlineAsSpace then [Bytes.chr '\n'] else []) buf ⟨[], buf⟩ := fun _ member _ => member
  obtain ⟨result, returns, keeps⟩ := WhileLoop.runUntil_of_rounds
    (fun _ holds => CompressState.Keeps.round holds) start (Nat.lt_succ_self buf.length)
  refine ⟨result, returns, fun byte member notBlank => keeps byte member fun isSpace => ?_⟩
  apply notBlank
  cases newlineAsSpace with
  | false =>
      rw [if_neg Bool.false_ne_true, List.append_nil] at isSpace
      have inBlanks : byte ∈ [Bytes.chr ' ', Bytes.chr '\t', Bytes.chr '\r'] ++
          [Bytes.chr '\n'] := List.mem_append_left _ isSpace
      exact inBlanks
  | true => exact isSpace

end miutil

/-- The text of a query, as `endElement` takes it from the characters of the element. -/
def queryText (buf : Bytes) : Bytes :=
  let lines := miutil.replaceString (miutil.trimstr buf miutil.blanks) [Bytes.chr '\n'] [] 0
  let words := lines.bind fun line => miutil.compresSpace line false
  let commas := words.bind fun line =>
    miutil.replaceString line (Bytes.str " ,") (Bytes.str ",") 0
  (commas.bind fun line => miutil.replaceString line (Bytes.str "; ") (Bytes.str ";") 0).getD []

/-- The replacements end, and no byte but a blank is lost. -/
theorem mem_queryText {buf : Bytes} {byte : Byte} (notBlank : byte ∉ miutil.blanks)
    (member : byte ∈ miutil.trimstr buf miutil.blanks) : byte ∈ queryText buf := by
  have notSpace : byte ≠ Bytes.chr ' ' := by
    rintro rfl
    exact notBlank (by decide)
  have notNewline : byte ≠ Bytes.chr '\n' := by
    rintro rfl
    exact notBlank (by decide)
  rw [queryText, miutil.replaceString_eq (by decide), Option.bind_some]
  obtain ⟨line, compressed, keeps⟩ := miutil.compresSpace_keeps
    (Replacement.replaceFrom [Bytes.chr '\n'] [] 0 0 0 (miutil.trimstr buf miutil.blanks)) false
  rw [compressed, Option.bind_some, miutil.replaceString_eq (by decide), Option.bind_some,
    miutil.replaceString_eq (by decide), Option.getD_some]
  apply Replacement.mem_replaceFrom (by decide)
  · intro inText
    rcases List.mem_cons.mp inText with semicolon | space
    · exact List.mem_singleton.mpr semicolon
    · exact absurd (List.mem_singleton.mp space) notSpace
  · apply Replacement.mem_replaceFrom (by decide)
    · intro inText
      rcases List.mem_cons.mp inText with space | comma
      · exact absurd space notSpace
      · exact comma
    · apply keeps byte _ notBlank
      apply Replacement.mem_replaceFrom (by decide)
      · exact fun inText => absurd (List.mem_singleton.mp inText) notNewline
      · exact member

/-- A query has text exactly when something else than blanks is written. -/
theorem queryText_eq_nil_iff (buf : Bytes) :
    queryText buf = [] ↔ ∀ byte ∈ buf, byte ∈ miutil.blanks := by
  constructor
  · intro noText byte member
    by_contra notBlank
    have isKept : miutil.blanks.contains byte = false := by
      rwa [← Bool.not_eq_true, List.contains_iff_mem]
    have kept := mem_queryText notBlank (Bytes.mem_trimBy isKept member)
    rw [noText] at kept
    exact absurd kept List.not_mem_nil
  · intro blanks
    have trimmed : miutil.trimstr buf miutil.blanks = [] :=
      Bytes.trimBy_eq_nil fun byte member => List.contains_iff_mem.mpr (blanks byte member)
    rw [queryText, trimmed]
    rfl

end Wdb2ts
