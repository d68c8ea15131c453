import Wdb2ts.Miutil
import Wdb2ts.Lib.Replacement
import Wdb2ts.Lib.WhileLoop

/-!
# Replacement in strings and streams

`replaceString` replaces a text in a whole string.  A `StreamReplaceSource` replaces it in
what it reads from an input stream, through a buffer of a fixed size.
-/

namespace Wdb2ts

open Replacement (spent)

namespace miutil

/-! ## Strings -/

/-- `std::string::find` of a string from a position on. -/
def findFrom (str what : Bytes) (pos : ℕ) : Option ℕ :=
  if str.length < pos then none else (findText what (str.drop pos)).map (· + pos)

/-- The variables of the loop of `replaceString`. -/
structure ReplaceState where
  str : Bytes
  pos : Option ℕ
  nCount : ℤ

/-- A round of the loop of `replaceString`. -/
def ReplaceState.round (what with_ : Bytes) (nToReplace : ℤ) (state : ReplaceState) :
    ReplaceState ⊕ Bytes :=
  match state.pos with
  | none => .inr state.str
  | some pos =>
      if spent nToReplace state.nCount then .inr state.str
      else
        let str := state.str.take pos ++ with_ ++ state.str.drop (pos + what.length)
        .inl ⟨str, findFrom str what (pos + with_.length), state.nCount - 1⟩

/-- `miutil::replaceString`, or `none` if the loop does not end within a round for each byte. -/
def replaceString (str what with_ : Bytes) (nToReplace : ℤ) : Option Bytes :=
  WhileLoop.runUntil (ReplaceState.round what with_ nToReplace) (str.length + 2)
    ⟨str, findFrom str what 0, nToReplace⟩

/-! ## Streams -/

/-- The members of a `StreamReplaceSource`.  `ist` is what is left of the input stream,
`iBuf` the data of the buffer up to `gibufend`, and `gibuf` a position in it. -/
structure StreamReplaceSource where
  ist : Bytes
  what : Bytes
  with_ : Bytes
  nToReplace : ℤ
  nCount : ℤ
  eofile : Bool
  ibufsize : ℕ
  iBuf : Bytes
  gibuf : ℕ
  gWhat : ℕ
  gWith : ℕ

namespace StreamReplaceSource

/-- `StreamReplaceSource( inStream, what, with, nToReplace, bufSize )`. -/
def new (inStream what with_ : Bytes) (nToReplace bufSize : ℤ) : StreamReplaceSource :=
  { ist := inStream
    what := what
    with_ := with_
    nToReplace := nToReplace
    nCount := nToReplace
    eofile := false
    ibufsize := (max bufSize what.length).toNat
    iBuf := []
    gibuf := 0
    gWhat := 0
    gWith := 0 }

/-- `StreamReplaceSource::fillBufFromStream`: the number of bytes read, or `none` for -1. -/
def fillBufFromStream (source : StreamReplaceSource) : Option ℕ × StreamReplaceSource :=
  if source.eofile then (none, source)
  else
    let kept := source.iBuf.drop source.gibuf
    let room := source.ibufsize - kept.length
    let taken := source.ist.take room
    (some taken.length,
      { source with
        ist := source.ist.drop room
        eofile := decide (source.ist.length < room)
        iBuf := kept ++ taken
        gibuf := 0 })

/-- `StreamReplaceSource::getDirect`: the bytes, or `none` for -1. -/
def getDirect (source : StreamReplaceSource) (N : ℕ) : Option Bytes × StreamReplaceSource :=
  if source.gibuf = source.iBuf.length then
    if source.eofile then (none, source)
    else
      (some (source.ist.take N),
        { source with
          ist := source.ist.drop N
          eofile := decide (source.ist.length < N) })
  else
    let chunk := (source.iBuf.drop source.gibuf).take N
    (some chunk, { source with gibuf := source.gibuf + chunk.length })

/-- `StreamReplaceSource::getWith`. -/
def getWith (source : StreamReplaceSource) (N : ℕ) : Bytes × StreamReplaceSource :=
  let chunk := (source.with_.drop source.gWith).take N
  let gWith := source.gWith + chunk.length
  if source.with_.length ≤ gWith then
    (chunk, { source with gWhat := 0, gWith := 0, nCount := source.nCount - 1 })
  else (chunk, { source with gWith := gWith })

/-- The variables of the loop of `get`: `out` are the bytes in `buf`, and `tmp` is the start of
the match. -/
structure GetState where
  source : StreamReplaceSource
  out : Bytes
  tmp : ℕ

/-- Fill an empty buffer, from the start of the match on. -/
def GetState.refill (state : GetState) : GetState ⊕ (Option Bytes × StreamReplaceSource) :=
  let source := state.source
  if source.gibuf = source.iBuf.length then
    let source := if 0 < source.gWhat then { source with gWhat := 0, gibuf := state.tmp } else source
    match source.fillBufFromStream with
    | (none, source) => .inr (if state.out.isEmpty then none else some state.out, source)
    | (some _, source) => .inl { state with source := source }
  else .inl state

/-- Compare the next byte of the buffer. -/
def GetState.matchByte (N : ℕ) (state : GetState) :
    GetState ⊕ (Option Bytes × StreamReplaceSource) :=
  let source := state.source
  match source.iBuf[source.gibuf]? with
  | none => .inl state
  | some byte =>
      if source.what[source.gWhat]? = some byte then
        let tmp := if source.gWhat = 0 then source.gibuf else state.tmp
        let source := { source with gWhat := source.gWhat + 1, gibuf := source.gibuf + 1 }
        if source.gWhat = source.what.length then
          if state.out.isEmpty then .inr (some (source.getWith N).1, (source.getWith N).2)
          else .inr (some state.out, source)
        else .inl { state with source := source, tmp := tmp }
      else if 0 < source.gWhat then
        let source := { source with gWhat := 0 }
        if state.tmp ≠ source.gibuf ∧ state.out.length < N then
          .inl
            { state with
              source := source
              out := state.out ++ (source.iBuf[state.tmp]?).toList }
        else .inl { state with source := { source with gibuf := state.tmp } }
      else
        .inl
          { state with
            source := { source with gibuf := source.gibuf + 1 }
            out := state.out ++ [byte] }

/-- A round of the loop of `get`. -/
def GetState.round (N : ℕ) (state : GetState) :
    GetState ⊕ (Option Bytes × StreamReplaceSource) :=
  if state.out.length < N then
    match state.refill with
    | .inr result => .inr result
    | .inl state => state.matchByte N
  else .inr (some state.out, state.source)

/-- The number of rounds that is enough for `get`. -/
def getFuel (source : StreamReplaceSource) (N : ℕ) : ℕ :=
  (source.ist.length + 1) * source.what.length + (source.iBuf.length - source.gibuf) +
    source.ist.length + N + 1

/-- `StreamReplaceSource::get`: the bytes, or `none` for -1.  There is no result if the loop
does not end within the rounds of `getFuel`. -/
def get (source : StreamReplaceSource) (N : ℕ) : Option (Option Bytes × StreamReplaceSource) :=
  if spent source.nToReplace source.nCount then some (source.getDirect N)
  else if source.gWhat = source.what.length then
    some (some (source.getWith N).1, (source.getWith N).2)
  else WhileLoop.runUntil (GetState.round N) (source.getFuel N) ⟨source, [], 0⟩

/-- The variables of the loop of `read`. -/
structure ReadState where
  source : StreamReplaceSource
  out : Bytes

/-- A round of the loop of `read`. -/
def ReadState.round (N : ℕ) (state : ReadState) :
    ReadState ⊕ Option (Option Bytes × StreamReplaceSource) :=
  if state.out.length < N then
    match state.source.get (N - state.out.length) with
    | none => .inr none
    | some (none, source) =>
        .inr (some (if state.out.isEmpty then none else some state.out, source))
    | some (some chunk, source) => .inl ⟨source, state.out ++ chunk⟩
  else .inr (some (some state.out, state.source))

/-- The number of rounds that is enough for `read`. -/
def readFuel (source : StreamReplaceSource) (N : ℕ) : ℕ :=
  N + 2 * ((source.iBuf.length - source.gibuf) + source.ist.length) + 3

/-- `StreamReplaceSource::read`: the bytes, or `none` for -1. -/
def read (source : StreamReplaceSource) (N : ℕ) : Option (Option Bytes × StreamReplaceSource) :=
  (WhileLoop.runUntil (ReadState.round N) (source.readFuel N) ⟨source, []⟩).join

/-- What reads of the given sizes deliver one after the other. -/
def reads : List ℕ → StreamReplaceSource → Option (List (Option Bytes))
  | [], _ => some []
  | N :: sizes, source => do
      let (delivered, source) ← source.read N
      let later ← reads sizes source
      some (delivered :: later)

end StreamReplaceSource

end miutil

end Wdb2ts
