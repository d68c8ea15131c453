import Wdb2ts.Lib.SortedMap
import Wdb2ts.Lib.WhileLoop
import Wdb2ts.TokenReader
import Wdb2ts.UrlParam

/-!
# Sections of keys

`parseKeysInSections` reads the database setup with a state machine over the tokens.  A section
exists from its first key on.
-/

namespace Wdb2ts

namespace miutil.pgpool

/-- The keys of a section with their values. -/
abbrev Keys := SortedMap Bytes Bytes

/-- The sections by their identifiers. -/
abbrev Sections := SortedMap Bytes Keys

/-- `sections[id].addKey(key, value)`. -/
def Sections.addKey (sections : Sections) (id key value : Bytes) : Sections :=
  sections.upsert id fun keys => (keys.getD ∅).insert key value

/-- The states of the parser. -/
inductive States where
  | sectionId
  | key
  | value
  | keyOrSectionId
  | comment
  | endState
  deriving DecidableEq, Repr

/-- `StatesStrings`. -/
def States.string : States → Bytes
  | sectionId => Bytes.str "SECTION_ID"
  | key => Bytes.str "KEY"
  | value => Bytes.str "VALUE"
  | keyOrSectionId => Bytes.str "KEY_OR_SECTION_ID"
  | comment => Bytes.str "COMMENT"
  | endState => Bytes.str "END"

/-- The local variables of `parseKeysInSections` with the sections. -/
structure ParserState where
  tokens : TokenReader
  nextTokens : Bytes
  sStart : Bool
  state : States
  currentSectionId : Bytes
  currentKey : Bytes
  sections : Sections

/-- What `parseKeysInSections` returns, and what it has written to its arguments. -/
structure ParseResult where
  ok : Bool
  sections : Sections
  errors : Bytes
  deriving DecidableEq

namespace ParserState

/-- A text with the line in front. -/
def line (parser : ParserState) (text : Bytes) : Bytes :=
  Bytes.str "line: " ++ printInt parser.tokens.lineCount ++ text

/-- An error at a token. -/
def unexpected (parser : ParserState) (expecting : Bytes) (token : Byte) : ParseResult :=
  { ok := false
    sections := parser.sections
    errors := parser.line (Bytes.str " expecting " ++ expecting ++ Bytes.str ", got " ++ [token] ++
      Bytes.str "\n") }

/-- The key is added, and a key or the identifier of a section comes next. -/
def addKey (parser : ParserState) (value : Bytes) : ParserState :=
  { parser with
    sections := parser.sections.addKey parser.currentSectionId parser.currentKey value
    state := .keyOrSectionId
    currentKey := []
    nextTokens := Bytes.str ":=" }

/-- A token decides between a key and the identifier of a section. -/
def choose (parser : ParserState) (token : Byte) : ParserState :=
  if parser.state = .keyOrSectionId then
    if token = Bytes.chr ':' then { parser with state := .sectionId, currentSectionId := [] }
    else if token = Bytes.chr '=' then { parser with state := .key, currentKey := [] }
    else { parser with state := .endState }
  else parser

/-- The cases of the state machine. -/
def react (parser : ParserState) (buf : Bytes) (token : Byte) : ParserState ⊕ ParseResult :=
  match parser.state with
  | .sectionId =>
      if token ≠ Bytes.chr ':' then
        .inr (parser.unexpected (Bytes.str "id delimiter ':'") token)
      else
        .inl { parser with
          currentSectionId := buf, nextTokens := Bytes.str ":=", state := .keyOrSectionId }
  | .key =>
      if token ≠ Bytes.chr '=' then
        .inr (parser.unexpected (Bytes.str "key/val delimiter '='") token)
      else
        .inl { parser with
          currentKey := buf, tokens := parser.tokens.skip (Bytes.str " \t"),
          nextTokens := Bytes.str "\" \t\n", state := .value }
  | .value =>
      if token = Bytes.chr ' ' ∨ token = Bytes.chr '\t' ∨ token = Bytes.chr '\n' then
        if parser.sStart then .inl parser else .inl (parser.addKey buf)
      else if token = Bytes.chr '"' then
        if parser.sStart then .inl ({ parser with sStart := false }.addKey buf)
        else .inl { parser with nextTokens := Bytes.str "\"", sStart := true }
      else
        .inr (parser.unexpected (Bytes.str "'" ++ parser.nextTokens ++ Bytes.str "' ") token)
  | .keyOrSectionId | .comment | .endState => .inl parser

/-- The text behind the last token. -/
def finish (parser : ParserState) (buf : Bytes) : ParseResult :=
  if buf.isEmpty then ⟨true, parser.sections, []⟩
  else if !parser.currentKey.isEmpty then
    ⟨true, parser.sections.addKey parser.currentSectionId parser.currentKey buf, []⟩
  else
    { ok := false
      sections := parser.sections
      errors := parser.line (Bytes.str " state: " ++ parser.state.string ++
        Bytes.str "\n   expecting token(s) [" ++ parser.nextTokens ++ Bytes.str "]\n") }

/-- One round of the loop. -/
def round (parser : ParserState) : ParserState ⊕ ParseResult :=
  let got := parser.tokens.getToken parser.nextTokens
  let parser := { parser with tokens := got.reader }
  match got.token with
  | none => .inr (parser.finish got.val)
  | some token =>
      if got.lastWasComment then .inl parser else (parser.choose token).react got.val token

/-- The variables before the loop. -/
def start (strToParse : Bytes) (sections : Sections) : ParserState :=
  { tokens := ⟨strToParse, 0⟩
    nextTokens := Bytes.str ":"
    sStart := false
    state := .sectionId
    currentSectionId := []
    currentKey := []
    sections := sections }

end ParserState

/-- `parseKeysInSections`.  Every round takes a byte. -/
def parseKeysInSections (strToParse : Bytes) (sections : Sections) : Option ParseResult :=
  WhileLoop.runUntil ParserState.round (strToParse.length + 1)
    (ParserState.start strToParse sections)

end miutil.pgpool

end Wdb2ts
