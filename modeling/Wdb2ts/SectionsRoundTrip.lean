import Wdb2ts.KeysInSections

/-!
# Written sections

Sections are written with an identifier and one line for every key, with the value in quotes.  What
the parser reads is compared with what was written.
-/

namespace Wdb2ts

namespace miutil.pgpool

open TokenReader (IsClean)

/-! ## What can be read -/

namespace Sections

/-- The value of a key of a section. -/
def value (sections : Sections) (id key : Bytes) : Option Bytes :=
  (sections.find? id).bind fun keys => keys.find? key

theorem value_addKey (sections : Sections) (id key text other otherKey : Bytes) :
    (sections.addKey id key text).value other otherKey =
      if other = id ∧ otherKey = key then some text else sections.value other otherKey := by
  rw [value, addKey, SortedMap.find?_upsert]
  by_cases sameId : other = id
  · subst sameId
    simp only [if_true, Option.bind_some, SortedMap.find?_insert, true_and, value]
    split
    · rfl
    · cases sections.find? other <;> rfl
  · rw [if_neg sameId, if_neg fun same => sameId same.1, value]

theorem isSome_find?_addKey (sections : Sections) (id key text other : Bytes) :
    ((sections.addKey id key text).find? other).isSome = true ↔
      other = id ∨ (sections.find? other).isSome = true := by
  rw [addKey, SortedMap.find?_upsert]
  by_cases sameId : other = id
  · simp [sameId]
  · simp [sameId]

/-- Every section has a key, and its names and values are clean. -/
structure Clean (sections : Sections) : Prop where
  hasKey : ∀ id, (sections.find? id).isSome = true → ∃ key text, sections.value id key = some text
  values : ∀ id key text, sections.value id key = some text →
    IsClean id ∧ IsClean key ∧ IsClean text

theorem clean_empty : Clean ∅ :=
  ⟨fun _ found => (by cases found), fun _ _ _ found => (by cases found)⟩

theorem Clean.addKey {sections : Sections} (clean : sections.Clean) {id key text : Bytes}
    (cleanId : IsClean id) (cleanKey : IsClean key) (cleanText : IsClean text) :
    (sections.addKey id key text).Clean := by
  constructor
  · intro other found
    rcases (isSome_find?_addKey sections id key text other).mp found with rfl | before
    · exact ⟨key, text, by rw [value_addKey, if_pos ⟨rfl, rfl⟩]⟩
    · rcases clean.hasKey other before with ⟨otherKey, otherText, isValue⟩
      by_cases same : other = id ∧ otherKey = key
      · exact ⟨otherKey, text, by rw [value_addKey, if_pos same]⟩
      · exact ⟨otherKey, otherText, by rw [value_addKey, if_neg same, isValue]⟩
  · intro other otherKey otherText isValue
    rw [value_addKey] at isValue
    split at isValue
    · rename_i same
      cases isValue
      rw [same.1, same.2]
      exact ⟨cleanId, cleanKey, cleanText⟩
    · exact clean.values other otherKey otherText isValue

end Sections

namespace ParserState

/-- All that the parser has read is clean. -/
structure Clean (parser : ParserState) : Prop where
  currentSectionId : IsClean parser.currentSectionId
  currentKey : IsClean parser.currentKey
  sections : parser.sections.Clean

variable {parser : ParserState}

theorem Clean.addKey (clean : parser.Clean) {buf : Bytes} (cleanBuf : IsClean buf) :
    (parser.addKey buf).Clean :=
  ⟨clean.currentSectionId, TokenReader.isClean_nil,
    clean.sections.addKey clean.currentSectionId clean.currentKey cleanBuf⟩

theorem Clean.choose (clean : parser.Clean) (token : Byte) : (parser.choose token).Clean := by
  rw [ParserState.choose]
  split_ifs
  · exact ⟨TokenReader.isClean_nil, clean.currentKey, clean.sections⟩
  · exact ⟨clean.currentSectionId, TokenReader.isClean_nil, clean.sections⟩
  · exact ⟨clean.currentSectionId, clean.currentKey, clean.sections⟩
  · exact clean

theorem choose_tokens (parser : ParserState) (token : Byte) :
    (parser.choose token).tokens = parser.tokens := by
  rw [choose]
  split_ifs <;> rfl

/-- The bytes that are left. -/
def left (parser : ParserState) : ℕ := parser.tokens.rest.length

theorem Clean.finish (clean : parser.Clean) {buf : Bytes} (cleanBuf : IsClean buf) :
    (parser.finish buf).sections.Clean := by
  rw [ParserState.finish]
  split_ifs
  · exact clean.sections
  · exact clean.sections.addKey clean.currentSectionId clean.currentKey cleanBuf
  · exact clean.sections

/-- The rounds of the loop keep what is read clean, and take a byte. -/
abbrev CleanRound (before : ParserState) : ParserState ⊕ ParseResult → Prop :=
  WhileLoop.Round Clean left (fun result => result.sections.Clean) before

theorem Clean.react (clean : parser.Clean) {buf : Bytes} (cleanBuf : IsClean buf) (token : Byte)
    {before : ParserState} (less : parser.left < before.left) :
    CleanRound before (parser.react buf token) := by
  rw [ParserState.react]
  cases parser.state with
  | sectionId =>
      dsimp only
      by_cases unexpected : token ≠ Bytes.chr ':'
      · rw [if_pos unexpected]
        exact clean.sections
      · rw [if_neg unexpected]
        exact ⟨⟨cleanBuf, clean.currentKey, clean.sections⟩, less⟩
  | key =>
      dsimp only
      by_cases unexpected : token ≠ Bytes.chr '='
      · rw [if_pos unexpected]
        exact clean.sections
      · rw [if_neg unexpected]
        exact ⟨⟨clean.currentSectionId, cleanBuf, clean.sections⟩,
          lt_of_le_of_lt (List.dropWhile_sublist _).length_le less⟩
  | value =>
      dsimp only
      by_cases isBlank : token = Bytes.chr ' ' ∨ token = Bytes.chr '\t' ∨ token = Bytes.chr '\n'
      · rw [if_pos isBlank]
        split
        · exact ⟨clean, less⟩
        · exact ⟨clean.addKey cleanBuf, less⟩
      · rw [if_neg isBlank]
        by_cases isQuote : token = Bytes.chr '"'
        · rw [if_pos isQuote]
          split
          · have closed : ({ parser with sStart := false } : ParserState).Clean :=
              ⟨clean.currentSectionId, clean.currentKey, clean.sections⟩
            exact ⟨closed.addKey cleanBuf, less⟩
          · exact ⟨⟨clean.currentSectionId, clean.currentKey, clean.sections⟩, less⟩
        · rw [if_neg isQuote]
          exact clean.sections
  | keyOrSectionId => exact ⟨clean, less⟩
  | comment => exact ⟨clean, less⟩
  | endState => exact ⟨clean, less⟩

theorem Clean.round (clean : parser.Clean) : CleanRound parser parser.round := by
  have cleanBuf := TokenReader.isClean_getToken parser.tokens parser.nextTokens
  have shorter : ∀ token, (parser.tokens.getToken parser.nextTokens).token = some token →
      (parser.tokens.getToken parser.nextTokens).reader.rest.length < parser.left :=
    fun token found => TokenReader.getToken_lt parser.tokens parser.nextTokens found
  rw [ParserState.round]
  generalize parser.tokens.getToken parser.nextTokens = got at cleanBuf shorter ⊢
  have cleanNext : ({ parser with tokens := got.reader } : ParserState).Clean :=
    ⟨clean.currentSectionId, clean.currentKey, clean.sections⟩
  cases found : got.token with
  | none => exact cleanNext.finish cleanBuf
  | some token =>
      by_cases isComment : got.lastWasComment = true
      · simp only [isComment, if_true]
        exact ⟨cleanNext, shorter token found⟩
      · simp only [isComment, if_false, Bool.false_eq_true]
        apply (cleanNext.choose token).react cleanBuf token
        rw [left, choose_tokens]
        exact shorter token found

/-- The parser returns, and all sections that it returns are clean. -/
theorem exists_parseKeysInSections (strToParse : Bytes) :
    ∃ result, parseKeysInSections strToParse ∅ = some result ∧ result.sections.Clean :=
  WhileLoop.runUntil_of_rounds (fun _ clean => Clean.round clean)
    ⟨TokenReader.isClean_nil, TokenReader.isClean_nil, Sections.clean_empty⟩ (Nat.lt_succ_self _)

end ParserState

/-! ## What is written -/

/-- White space only. -/
def IsWhite (text : Bytes) : Prop := ∀ byte ∈ text, blanks.contains byte = true

/-- No white space at the ends. -/
def IsTrimmed (text : Bytes) : Prop := Bytes.TrimmedBy (fun byte => blanks.contains byte) text

/-- An identifier or a key. -/
structure IsName (name : Bytes) : Prop where
  trimmed : IsTrimmed name
  noColon : Bytes.chr ':' ∉ name
  noEquals : Bytes.chr '=' ∉ name
  noComment : TokenReader.comment ∉ name
  noQuote : Bytes.chr '"' ∉ name

/-- A value that is written in quotes. -/
structure IsQuotable (text : Bytes) : Prop where
  trimmed : IsTrimmed text
  noQuote : Bytes.chr '"' ∉ text
  oneLine : Bytes.chr '\n' ∉ text

/-- A section with its keys, and the white space behind its colon. -/
structure WrittenSection where
  id : Bytes
  gap : Bytes
  keys : List (Bytes × Bytes)
  isName : IsName id
  isWhite : IsWhite gap
  isNames : ∀ entry ∈ keys, IsName entry.1
  isQuotables : ∀ entry ∈ keys, IsQuotable entry.2

/-- The line of a key. -/
def keyLine (entry : Bytes × Bytes) : Bytes :=
  entry.1 ++ (Bytes.str "=\"" ++ (entry.2 ++ Bytes.str "\"\n"))

/-- The text of a section. -/
def WrittenSection.text (section_ : WrittenSection) : Bytes :=
  section_.id ++ (Bytes.str ":" ++ (section_.gap ++ section_.keys.flatMap keyLine))

/-- The sections, keys and values are exactly the written ones. -/
structure Yields (sections : Sections) (written : List WrittenSection) : Prop where
  ids : ∀ id, (sections.find? id).isSome = true ↔ ∃ section_ ∈ written, section_.id = id
  values : ∀ id key text, sections.value id key = some text ↔
    ∃ section_ ∈ written, section_.id = id ∧ (key, text) ∈ section_.keys

/-- The parser reads the sections back. -/
def RoundTrips (written : List WrittenSection) : Prop :=
  ∃ result, parseKeysInSections (written.flatMap WrittenSection.text) ∅ = some result ∧
    result.ok = true ∧ Yields result.sections written

/-- No value holds a comment character, every section has a key, names stand on one line, and no
key of a section has two values. -/
structure Readable (written : List WrittenSection) : Prop where
  noComment : ∀ section_ ∈ written, ∀ entry ∈ section_.keys, TokenReader.comment ∉ entry.2
  hasKey : ∀ section_ ∈ written, section_.keys ≠ []
  idOneLine : ∀ section_ ∈ written, Bytes.chr '\n' ∉ section_.id
  keyOneLine : ∀ section_ ∈ written, ∀ entry ∈ section_.keys, Bytes.chr '\n' ∉ entry.1
  oneValue : ∀ section_ ∈ written, ∀ key left right, (key, left) ∈ section_.keys →
    (key, right) ∈ section_.keys → left = right

/-- Sections that are clean and exactly the written ones were readable. -/
theorem Yields.readable {sections : Sections} {written : List WrittenSection}
    (yields : Yields sections written) (clean : sections.Clean)
    (distinct : (written.map WrittenSection.id).Nodup) : Readable written := by
  have isValue : ∀ section_ ∈ written, ∀ entry ∈ section_.keys,
      sections.value section_.id entry.1 = some entry.2 := fun section_ member entry isIn =>
    (yields.values section_.id entry.1 entry.2).mpr ⟨section_, member, rfl, isIn⟩
  have aKey : ∀ section_ ∈ written, ∃ key text, sections.value section_.id key = some text :=
    fun section_ member => clean.hasKey section_.id ((yields.ids section_.id).mpr
      ⟨section_, member, rfl⟩)
  constructor
  · intro section_ member entry isIn
    exact (clean.values _ _ _ (isValue section_ member entry isIn)).2.2.2
  · intro section_ member
    rcases aKey section_ member with ⟨key, text, found⟩
    rcases (yields.values section_.id key text).mp found with ⟨other, isIn, sameId, hasKey⟩
    have same : other = section_ := List.inj_on_of_nodup_map distinct isIn member sameId
    rw [← same]
    exact List.ne_nil_of_mem hasKey
  · intro section_ member
    rcases aKey section_ member with ⟨key, text, found⟩
    exact (clean.values _ _ _ found).1.1
  · intro section_ member entry isIn
    exact (clean.values _ _ _ (isValue section_ member entry isIn)).2.1.1
  · intro section_ member key left right isLeft isRight
    have leftValue := isValue section_ member (key, left) isLeft
    have rightValue := isValue section_ member (key, right) isRight
    exact Option.some.inj (leftValue.symm.trans rightValue)

/-! ## Reading the lines -/

namespace ParserState

/-- The parser before a key or the identifier of a section. -/
def atLine (sections : Sections) (id : Bytes) (lineCount : ℤ) (rest : Bytes) : ParserState :=
  { tokens := ⟨rest, lineCount⟩
    nextTokens := Bytes.str ":="
    sStart := false
    state := .keyOrSectionId
    currentSectionId := id
    currentKey := []
    sections := sections }

/-- The rounds of the loop from one state to another. -/
abbrev Leads : ParserState → ParserState → Prop :=
  Relation.ReflTransGen (@WhileLoop.Goes ParserState ParseResult ParserState.round)

end ParserState

open ParserState (atLine Leads)

theorem isWhite_nil : IsWhite [] := fun _ member => absurd member List.not_mem_nil

theorem IsWhite.noComment {text : Bytes} (isWhite : IsWhite text) :
    TokenReader.comment ∉ text := fun member => absurd (isWhite _ member) (by decide)

theorem IsWhite.notMem {text : Bytes} (isWhite : IsWhite text) {byte : Byte}
    (notWhite : blanks.contains byte = false) : byte ∉ text := by
  intro member
  rw [isWhite byte member] at notWhite
  cases notWhite

/-- White space before a name and line ends are removed. -/
theorem val_append {white text : Bytes} (isWhite : IsWhite white) (trimmed : IsTrimmed text)
    (oneLine : Bytes.chr '\n' ∉ text) :
    trimstr ((white ++ text).filter fun byte => byte ≠ Bytes.chr '\n') blanks = text := by
  have kept : text.filter (fun byte => byte ≠ Bytes.chr '\n') = text := by
    rw [List.filter_eq_self]
    intro byte member
    rw [decide_eq_true_eq]
    rintro rfl
    exact oneLine member
  have whole := trimmed.trimBy_append (white.filter fun byte => byte ≠ Bytes.chr '\n') []
    (fun byte member => isWhite byte (List.mem_filter.mp member).1) (by simp)
  rw [List.filter_append, kept, trimstr]
  rwa [List.append_nil] at whole

/-- The name before a colon or an equals sign. -/
theorem getToken_name {chSet white name : Bytes} {stop : Byte}
    (inSet : ∀ byte ∈ chSet, byte = Bytes.chr ':' ∨ byte = Bytes.chr '=') (isStop : stop ∈ chSet)
    (isWhite : IsWhite white) (isName : IsName name) (oneLine : Bytes.chr '\n' ∉ name)
    (rest : Bytes) (lineCount : ℤ) :
    ∃ lines, TokenReader.getToken ⟨white ++ name ++ stop :: rest, lineCount⟩ chSet =
      { val := name, token := some stop, lastWasComment := false, reader := ⟨rest, lines⟩ } := by
  have noBlank : ∀ byte ∈ chSet, TokenReader.isBlank byte = false := by
    intro byte member
    rcases inSet byte member with rfl | rfl <;> decide
  have noComment : TokenReader.comment ∉ white ++ name := by
    rw [List.mem_append, not_or]
    exact ⟨isWhite.noComment, isName.noComment⟩
  have outside : ∀ byte ∈ white ++ name, byte ∉ chSet := by
    intro byte member isIn
    rcases List.mem_append.mp member with inWhite | inName
    · rcases inSet byte isIn with rfl | rfl <;> exact isWhite.notMem (by decide) inWhite
    · rcases inSet byte isIn with rfl | rfl
      · exact isName.noColon inName
      · exact isName.noEquals inName
  have stops : TokenReader.StopsAt chSet (stop :: rest) := by
    intro byte first
    cases first
    refine ⟨isStop, ?_⟩
    rcases inSet stop isStop with rfl | rfl <;> decide
  rcases TokenReader.getToken_append noBlank noComment outside stops lineCount with ⟨lines, got⟩
  exact ⟨lines, by rw [got, val_append isWhite isName.trimmed oneLine]; rfl⟩

/-- A value and its closing quote. -/
theorem getToken_value {text : Bytes} (isQuotable : IsQuotable text)
    (noComment : TokenReader.comment ∉ text) (rest : Bytes) (lineCount : ℤ) :
    ∃ lines, TokenReader.getToken ⟨text ++ Bytes.chr '"' :: rest, lineCount⟩ (Bytes.str "\"") =
      { val := text, token := some (Bytes.chr '"'), lastWasComment := false
        reader := ⟨rest, lines⟩ } := by
  have noBlank : ∀ byte ∈ Bytes.str "\"", TokenReader.isBlank byte = false :=
    List.forall_mem_singleton.mpr (by decide)
  have outside : ∀ byte ∈ text, byte ∉ Bytes.str "\"" := by
    intro byte member isQuote
    rw [List.mem_singleton.mp isQuote] at member
    exact isQuotable.noQuote member
  have stops : TokenReader.StopsAt (Bytes.str "\"") (Bytes.chr '"' :: rest) := by
    intro byte first
    cases first
    exact ⟨List.mem_singleton.mpr rfl, by decide⟩
  rcases TokenReader.getToken_append noBlank noComment outside stops lineCount with ⟨lines, got⟩
  have val := val_append isWhite_nil isQuotable.trimmed isQuotable.oneLine
  rw [List.nil_append] at val
  exact ⟨lines, by rw [got, val]; rfl⟩

theorem mem_tokens {byte : Byte} (member : byte ∈ Bytes.str ":=") :
    byte = Bytes.chr ':' ∨ byte = Bytes.chr '=' := by
  rcases List.mem_cons.mp member with isColon | isEquals
  · exact .inl isColon
  · exact .inr (List.mem_singleton.mp isEquals)

theorem mem_firstToken {byte : Byte} (member : byte ∈ Bytes.str ":") :
    byte = Bytes.chr ':' ∨ byte = Bytes.chr '=' :=
  .inl (List.mem_singleton.mp member)

/-- The identifier of the first section. -/
theorem firstId_leads (sections : Sections) {id : Bytes} (isName : IsName id)
    (oneLine : Bytes.chr '\n' ∉ id) (rest : Bytes) :
    ∃ lines, Leads (ParserState.start (id ++ (Bytes.str ":" ++ rest)) sections)
      (atLine sections id lines rest) := by
  have isColon : Bytes.chr ':' ∈ Bytes.str ":" := List.mem_singleton.mpr rfl
  rcases getToken_name (fun _ => mem_firstToken) isColon isWhite_nil isName oneLine rest 0 with
    ⟨lines, got⟩
  refine ⟨lines, .single ?_⟩
  rw [List.nil_append] at got
  have split : id ++ (Bytes.str ":" ++ rest) = id ++ Bytes.chr ':' :: rest := rfl
  simp only [WhileLoop.Goes, ParserState.round, ParserState.start, split, got]
  rfl

/-- The identifier of another section. -/
theorem nextId_leads (sections : Sections) (id : Bytes) (lineCount : ℤ) {white next : Bytes}
    (isWhite : IsWhite white) (isName : IsName next) (oneLine : Bytes.chr '\n' ∉ next)
    (rest : Bytes) :
    ∃ lines, Leads (atLine sections id lineCount (white ++ (next ++ (Bytes.str ":" ++ rest))))
      (atLine sections next lines rest) := by
  have isColon : Bytes.chr ':' ∈ Bytes.str ":=" := List.mem_cons_self
  rcases getToken_name (fun _ => mem_tokens) isColon isWhite isName oneLine rest lineCount with
    ⟨lines, got⟩
  refine ⟨lines, .single ?_⟩
  have split : white ++ (next ++ (Bytes.str ":" ++ rest)) = white ++ next ++ Bytes.chr ':' :: rest :=
    (List.append_assoc _ _ _).symm
  simp only [WhileLoop.Goes, ParserState.round, atLine, split, got]
  rfl

/-- The line of a key, with the line end left. -/
theorem keyLine_leads (sections : Sections) (id : Bytes) (lineCount : ℤ) {white : Bytes}
    {entry : Bytes × Bytes} (isWhite : IsWhite white) (isName : IsName entry.1)
    (oneLine : Bytes.chr '\n' ∉ entry.1) (isQuotable : IsQuotable entry.2)
    (noComment : TokenReader.comment ∉ entry.2) (rest : Bytes) :
    ∃ lines, Leads (atLine sections id lineCount (white ++ (keyLine entry ++ rest)))
      (atLine (sections.addKey id entry.1 entry.2) id lines (Bytes.str "\n" ++ rest)) := by
  let afterValue := Bytes.str "\n" ++ rest
  let afterQuote := entry.2 ++ Bytes.chr '"' :: afterValue
  have split : white ++ (keyLine entry ++ rest) =
      white ++ entry.1 ++ Bytes.chr '=' :: Bytes.chr '"' :: afterQuote := by
    have opening : Bytes.str "=\"" = [Bytes.chr '=', Bytes.chr '"'] := rfl
    have closing : Bytes.str "\"\n" = Bytes.chr '"' :: Bytes.str "\n" := rfl
    simp only [keyLine, opening, closing, List.append_assoc, List.cons_append, List.nil_append,
      afterQuote, afterValue]
  have isEquals : Bytes.chr '=' ∈ Bytes.str ":=" := List.mem_cons_of_mem _ List.mem_cons_self
  rcases getToken_name (fun _ => mem_tokens) isEquals isWhite isName oneLine
    (Bytes.chr '"' :: afterQuote) lineCount with ⟨keyLines, gotKey⟩
  rcases getToken_value isQuotable noComment afterValue keyLines with ⟨lines, gotValue⟩
  let atQuote : ParserState :=
    { atLine sections id keyLines (Bytes.chr '"' :: afterQuote) with
      currentKey := entry.1, nextTokens := Bytes.str "\" \t\n", state := .value }
  let inQuotes : ParserState :=
    { atQuote with
      tokens := ⟨afterQuote, keyLines⟩, nextTokens := Bytes.str "\"", sStart := true }
  have key : WhileLoop.Goes ParserState.round
      (atLine sections id lineCount (white ++ (keyLine entry ++ rest))) atQuote := by
    simp only [WhileLoop.Goes, ParserState.round, atLine, split, gotKey]
    rfl
  have quote : WhileLoop.Goes ParserState.round atQuote inQuotes := rfl
  have value : WhileLoop.Goes ParserState.round inQuotes
      (atLine (sections.addKey id entry.1 entry.2) id lines afterValue) := by
    simp only [WhileLoop.Goes, ParserState.round, inQuotes, gotValue, afterQuote]
    rfl
  exact ⟨lines, ((Relation.ReflTransGen.single key).tail quote).tail value⟩

/-! ## Runs over a text -/

/-- The keys are added one after the other. -/
def Sections.addKeys (sections : Sections) (entries : List (Bytes × Bytes × Bytes)) : Sections :=
  entries.foldl (fun sections entry => sections.addKey entry.1 entry.2.1 entry.2.2) sections

theorem Sections.addKeys_append (sections : Sections)
    (left right : List (Bytes × Bytes × Bytes)) :
    sections.addKeys (left ++ right) = (sections.addKeys left).addKeys right :=
  List.foldl_append

/-- The keys of a section with its identifier. -/
def WrittenSection.entries (section_ : WrittenSection) : List (Bytes × Bytes × Bytes) :=
  section_.keys.map fun entry => (section_.id, entry)

theorem isWhite_newline : IsWhite (Bytes.str "\n") := List.forall_mem_singleton.mpr (by decide)

/-- The lines of the keys of a section. -/
theorem keyLines_leads (id : Bytes) {keys : List (Bytes × Bytes)}
    (isNames : ∀ entry ∈ keys, IsName entry.1)
    (oneLine : ∀ entry ∈ keys, Bytes.chr '\n' ∉ entry.1)
    (isQuotables : ∀ entry ∈ keys, IsQuotable entry.2)
    (noComment : ∀ entry ∈ keys, TokenReader.comment ∉ entry.2) (sections : Sections)
    (lineCount : ℤ) {white : Bytes} (isWhite : IsWhite white) (rest : Bytes) :
    ∃ lines left, IsWhite left ∧
      Leads (atLine sections id lineCount (white ++ (keys.flatMap keyLine ++ rest)))
        (atLine (sections.addKeys (keys.map fun entry => (id, entry))) id lines (left ++ rest)) := by
  induction keys generalizing sections lineCount white with
  | nil => exact ⟨lineCount, white, isWhite, .refl⟩
  | cons entry others ih =>
      rw [List.forall_mem_cons] at isNames oneLine isQuotables noComment
      rcases keyLine_leads sections id lineCount isWhite isNames.1 oneLine.1 isQuotables.1
        noComment.1 (others.flatMap keyLine ++ rest) with ⟨linesFirst, first⟩
      rcases ih isNames.2 oneLine.2 isQuotables.2 noComment.2
        (sections.addKey id entry.1 entry.2) linesFirst isWhite_newline with
        ⟨lines, left, isLeft, next⟩
      refine ⟨lines, left, isLeft, Relation.ReflTransGen.trans ?_ next⟩
      rw [List.flatMap_cons, List.append_assoc]
      exact first

/-- The text of a section behind its colon. -/
theorem sectionKeys_leads {section_ : WrittenSection}
    (noComment : ∀ entry ∈ section_.keys, TokenReader.comment ∉ entry.2)
    (oneLine : ∀ entry ∈ section_.keys, Bytes.chr '\n' ∉ entry.1) (sections : Sections)
    (lineCount : ℤ) (rest : Bytes) :
    ∃ lines left, IsWhite left ∧
      Leads (atLine sections section_.id lineCount
          (section_.gap ++ (section_.keys.flatMap keyLine ++ rest)))
        (atLine (sections.addKeys section_.entries) section_.id lines (left ++ rest)) :=
  keyLines_leads section_.id section_.isNames oneLine section_.isQuotables noComment sections
    lineCount section_.isWhite rest

theorem WrittenSection.text_append (section_ : WrittenSection) (rest : Bytes) :
    section_.text ++ rest = section_.id ++ (Bytes.str ":" ++
      (section_.gap ++ (section_.keys.flatMap keyLine ++ rest))) := by
  simp only [text, List.append_assoc]

theorem Readable.tail {section_ : WrittenSection} {others : List WrittenSection}
    (readable : Readable (section_ :: others)) : Readable others :=
  ⟨(List.forall_mem_cons.mp readable.noComment).2, (List.forall_mem_cons.mp readable.hasKey).2,
    (List.forall_mem_cons.mp readable.idOneLine).2,
    (List.forall_mem_cons.mp readable.keyOneLine).2,
    (List.forall_mem_cons.mp readable.oneValue).2⟩

/-- The texts of the sections behind the first one. -/
theorem sections_leads {written : List WrittenSection} (readable : Readable written)
    (sections : Sections) (id : Bytes) (lineCount : ℤ) {white : Bytes} (isWhite : IsWhite white) :
    ∃ lines left lastId, IsWhite left ∧
      Leads (atLine sections id lineCount (white ++ written.flatMap WrittenSection.text))
        (atLine (sections.addKeys (written.flatMap WrittenSection.entries)) lastId lines left) := by
  induction written generalizing sections id lineCount white with
  | nil => exact ⟨lineCount, white, id, isWhite, by rw [List.flatMap_nil, List.append_nil]; rfl⟩
  | cons section_ others ih =>
      have noComment := readable.noComment section_ List.mem_cons_self
      have keyOneLine := readable.keyOneLine section_ List.mem_cons_self
      have idOneLine := readable.idOneLine section_ List.mem_cons_self
      let rest := others.flatMap WrittenSection.text
      rcases nextId_leads sections id lineCount isWhite section_.isName idOneLine
        (section_.gap ++ (section_.keys.flatMap keyLine ++ rest)) with ⟨linesId, toId⟩
      rcases sectionKeys_leads noComment keyOneLine sections linesId rest with
        ⟨linesKeys, leftKeys, isWhiteKeys, toKeys⟩
      rcases ih readable.tail (sections.addKeys section_.entries) section_.id linesKeys
        isWhiteKeys with ⟨lines, left, lastId, isLeft, toOthers⟩
      refine ⟨lines, left, lastId, isLeft, Relation.ReflTransGen.trans ?_ (toKeys.trans ?_)⟩
      · rw [List.flatMap_cons, section_.text_append]
        exact toId
      · rw [List.flatMap_cons, Sections.addKeys_append]
        exact toOthers

/-- White space at the end is no token. -/
theorem round_white (sections : Sections) (id : Bytes) (lineCount : ℤ) {white : Bytes}
    (isWhite : IsWhite white) :
    ParserState.round (atLine sections id lineCount white) = .inr ⟨true, sections, []⟩ := by
  have outside : ∀ byte ∈ white, byte ∉ Bytes.str ":=" := by
    intro byte member isIn
    rcases mem_tokens isIn with rfl | rfl <;> exact isWhite.notMem (by decide) member
  have noBlank : ∀ byte ∈ Bytes.str ":=", TokenReader.isBlank byte = false := by
    intro byte member
    rcases mem_tokens member with rfl | rfl <;> decide
  have stops : TokenReader.StopsAt (Bytes.str ":=") [] := fun _ first => by cases first
  rcases TokenReader.getToken_append noBlank isWhite.noComment outside stops lineCount with
    ⟨lines, got⟩
  have trimmed : IsTrimmed [] := Bytes.trimmedBy_of_forall (by simp)
  have val := val_append isWhite trimmed List.not_mem_nil
  rw [List.append_nil] at got val
  simp only [ParserState.round, atLine, got, val]
  rfl

theorem parseKeysInSections_of_leads {text : Bytes} {sections : Sections} {id white : Bytes}
    {lineCount : ℤ} (isWhite : IsWhite white)
    (leads : Leads (ParserState.start text ∅) (atLine sections id lineCount white)) :
    parseKeysInSections text ∅ = some ⟨true, sections, []⟩ := by
  rcases ParserState.exists_parseKeysInSections text with ⟨result, returns, -⟩
  have same := WhileLoop.runUntil_of_goes leads (round_white sections id lineCount isWhite) returns
  rw [returns, same]

/-- Readable sections are read into the map of their keys. -/
theorem Readable.parseKeysInSections {written : List WrittenSection}
    (readable : Readable written) :
    pgpool.parseKeysInSections (written.flatMap WrittenSection.text) ∅ =
      some ⟨true, Sections.addKeys ∅ (written.flatMap WrittenSection.entries), []⟩ := by
  cases written with
  | nil => rfl
  | cons section_ others =>
      have noComment := readable.noComment section_ List.mem_cons_self
      have keyOneLine := readable.keyOneLine section_ List.mem_cons_self
      have idOneLine := readable.idOneLine section_ List.mem_cons_self
      let rest := others.flatMap WrittenSection.text
      rcases firstId_leads ∅ section_.isName idOneLine
        (section_.gap ++ (section_.keys.flatMap keyLine ++ rest)) with ⟨linesId, toId⟩
      rcases sectionKeys_leads noComment keyOneLine ∅ linesId rest with
        ⟨linesKeys, leftKeys, isWhiteKeys, toKeys⟩
      rcases sections_leads readable.tail (Sections.addKeys ∅ section_.entries) section_.id
        linesKeys isWhiteKeys with ⟨lines, left, lastId, isLeft, toOthers⟩
      rw [← section_.text_append] at toId
      rw [List.flatMap_cons, List.flatMap_cons, Sections.addKeys_append]
      exact parseKeysInSections_of_leads isLeft (toId.trans (toKeys.trans toOthers))

/-! ## The sections that are read -/

namespace Sections

variable {entries : List (Bytes × Bytes × Bytes)}

theorem isSome_find?_addKeys (entries : List (Bytes × Bytes × Bytes)) (id : Bytes) :
    ((addKeys ∅ entries).find? id).isSome = true ↔ ∃ entry ∈ entries, entry.1 = id := by
  induction entries using List.reverseRecOn with
  | nil => simp [addKeys]
  | append_singleton entries last ih =>
      rw [addKeys_append, addKeys, List.foldl_cons, List.foldl_nil, isSome_find?_addKey, ih]
      simp only [List.mem_append, List.mem_singleton, or_and_right, exists_or, exists_eq_left]
      rw [or_comm, eq_comm]

/-- When no key has two values, the keys have their values. -/
theorem value_addKeys (oneValue : ∀ id key left right, (id, key, left) ∈ entries →
      (id, key, right) ∈ entries → left = right) (id key text : Bytes) :
    (addKeys ∅ entries).value id key = some text ↔ (id, key, text) ∈ entries := by
  induction entries using List.reverseRecOn generalizing text with
  | nil => simp [addKeys, value]
  | append_singleton entries last ih =>
      have before := ih fun id key left right isLeft isRight =>
        oneValue id key left right (List.mem_append_left _ isLeft) (List.mem_append_left _ isRight)
      rw [addKeys_append, addKeys, List.foldl_cons, List.foldl_nil, value_addKey, List.mem_append,
        List.mem_singleton]
      by_cases same : id = last.1 ∧ key = last.2.1
      · rcases same with ⟨rfl, rfl⟩
        rw [if_pos ⟨rfl, rfl⟩, Option.some.injEq]
        constructor
        · rintro rfl
          exact .inr rfl
        · rintro (earlier | isLast)
          · exact (oneValue last.1 last.2.1 text last.2.2 (List.mem_append_left _ earlier)
              (List.mem_append_right _ (List.mem_singleton.mpr rfl))).symm
          · rw [← isLast]
      · rw [if_neg same, before]
        refine ⟨.inl, ?_⟩
        rintro (earlier | isLast)
        · exact earlier
        · exact absurd (by rw [← isLast]; exact ⟨rfl, rfl⟩) same

end Sections

theorem mem_entries {written : List WrittenSection} {id key text : Bytes} :
    (id, key, text) ∈ written.flatMap WrittenSection.entries ↔
      ∃ section_ ∈ written, section_.id = id ∧ (key, text) ∈ section_.keys := by
  simp [WrittenSection.entries, List.mem_flatMap, and_comm]

/-- Readable sections with distinct identifiers are exactly what is read. -/
theorem Readable.yields {written : List WrittenSection} (readable : Readable written)
    (distinct : (written.map WrittenSection.id).Nodup) :
    Yields (Sections.addKeys ∅ (written.flatMap WrittenSection.entries)) written := by
  constructor
  · intro id
    rw [Sections.isSome_find?_addKeys]
    constructor
    · rintro ⟨⟨_, key, text⟩, member, rfl⟩
      rcases mem_entries.mp member with ⟨section_, isIn, sameId, -⟩
      exact ⟨section_, isIn, sameId⟩
    · rintro ⟨section_, isIn, rfl⟩
      rcases List.exists_mem_of_ne_nil _ (readable.hasKey section_ isIn) with ⟨entry, hasEntry⟩
      exact ⟨(section_.id, entry), mem_entries.mpr ⟨section_, isIn, rfl, hasEntry⟩, rfl⟩
  · intro id key text
    rw [Sections.value_addKeys, mem_entries]
    intro id key left right isLeft isRight
    rcases mem_entries.mp isLeft with ⟨section_, isIn, sameId, hasLeft⟩
    rcases mem_entries.mp isRight with ⟨other, otherIn, otherId, hasRight⟩
    have same : other = section_ :=
      List.inj_on_of_nodup_map distinct otherIn isIn (otherId.trans sameId.symm)
    rw [same] at hasRight
    exact readable.oneValue section_ isIn key left right hasLeft hasRight

/-- Sections with distinct identifiers are read back exactly when they are readable. -/
theorem sectionsRoundTrip_iff {written : List WrittenSection}
    (distinct : (written.map WrittenSection.id).Nodup) : RoundTrips written ↔ Readable written := by
  constructor
  · rintro ⟨result, returns, -, yields⟩
    rcases ParserState.exists_parseKeysInSections (written.flatMap WrittenSection.text) with
      ⟨other, otherReturns, clean⟩
    cases returns.symm.trans otherReturns
    exact yields.readable clean distinct
  · intro readable
    exact ⟨_, readable.parseKeysInSections, rfl, readable.yields distinct⟩

theorem isTrimmed_of_all {text : Bytes}
    (checked : (text.all fun byte => !blanks.contains byte) = true) : IsTrimmed text :=
  Bytes.trimmedBy_of_forall fun byte member => by
    simpa using List.all_eq_true.mp checked byte member

theorem isName_password : IsName (Bytes.str "password") :=
  ⟨isTrimmed_of_all (by decide), by decide, by decide, by decide, by decide⟩

/-- A database with a password. -/
def withPassword (password : Bytes) (isQuotable : IsQuotable password) : WrittenSection where
  id := Bytes.str "wdb"
  gap := Bytes.str "\n"
  keys := [(Bytes.str "password", password)]
  isName := ⟨isTrimmed_of_all (by decide), by decide, by decide, by decide, by decide⟩
  isWhite := isWhite_newline
  isNames := List.forall_mem_singleton.mpr isName_password
  isQuotables := List.forall_mem_singleton.mpr isQuotable

theorem isQuotable_withBlank : IsQuotable (Bytes.str "a=b :c") :=
  ⟨⟨fun _ first => by cases first; rfl, fun _ last => by cases last; rfl⟩, by decide, by decide⟩

theorem isQuotable_withComment : IsQuotable (Bytes.str "a#b") :=
  ⟨isTrimmed_of_all (by decide), by decide, by decide⟩

/-- A password with blanks and equals signs is read back. -/
theorem sectionsRoundTrip_iff_password :
    RoundTrips [withPassword (Bytes.str "a=b :c") isQuotable_withBlank] := by
  let section_ := withPassword (Bytes.str "a=b :c") isQuotable_withBlank
  have distinct : ([section_].map WrittenSection.id).Nodup := List.nodup_singleton section_.id
  apply (sectionsRoundTrip_iff distinct).mpr
  constructor <;> rw [List.forall_mem_singleton]
  · exact List.forall_mem_singleton.mpr (by decide)
  · exact List.cons_ne_nil _ _
  · decide
  · exact List.forall_mem_singleton.mpr (by decide)
  · intro key left right isLeft isRight
    cases List.mem_singleton.mp isLeft
    cases List.mem_singleton.mp isRight
    rfl

/-- A password with a comment character is lost with its section. -/
theorem passwordWithComment_lost :
    ¬RoundTrips [withPassword (Bytes.str "a#b") isQuotable_withComment] := by
  rintro ⟨result, returns, -, yields⟩
  have lost : parseKeysInSections (Bytes.str "wdb:\npassword=\"a#b\"\n") ∅ =
      some ⟨true, ∅, []⟩ := by
    decide +kernel
  cases lost.symm.trans returns
  have found := (yields.ids (Bytes.str "wdb")).mpr ⟨_, List.mem_singleton.mpr rfl, rfl⟩
  cases found

end miutil.pgpool

end Wdb2ts
