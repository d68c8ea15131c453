import Wdb2ts.StreamReplace

/-!
# What a stream with replacement delivers

A read delivers the next bytes of the result of a hasty search, which leaves out the bytes
that agree with the text where the search fails.  So the stream agrees with `replaceString`
when there are no such bytes.
-/

namespace Wdb2ts

namespace miutil

open Replacement

namespace StreamReplaceSource

/-- What is left of the text. -/
def text (source : StreamReplaceSource) : Bytes :=
  source.iBuf.drop source.gibuf ++ source.ist

/-- The result of the hasty search in a text, with the replacements a source has left. -/
def search (source : StreamReplaceSource) (count : ℤ) (text : Bytes) : Bytes :=
  hastyFrom source.what source.with_ source.nToReplace count 0 text

/-- What is left to deliver. -/
def pending (source : StreamReplaceSource) : Bytes :=
  if source.gWhat = source.what.length then
    source.with_.drop source.gWith ++ source.search (source.nCount - 1) source.text
  else source.search source.nCount source.text

/-- The pointers of a source are in its buffer, which has room for the searched text, and the
stream is empty behind its end. -/
structure Valid (source : StreamReplaceSource) : Prop where
  someWhat : source.what ≠ []
  room : source.what.length ≤ source.ibufsize
  inBuffer : source.iBuf.length ≤ source.ibufsize
  inData : source.gibuf ≤ source.iBuf.length
  atEnd : source.eofile = true → source.ist = []

/-- A source between two calls of `get`: before a search, or in a replacement. -/
structure Resting (source : StreamReplaceSource) : Prop extends Valid source where
  gWith_le : source.gWith ≤ source.with_.length
  phase : (source.gWhat = 0 ∧ source.gWith = 0) ∨
    (source.gWhat = source.what.length ∧ spent source.nToReplace source.nCount = false)

/-- The bytes that are left to read, the replacement that is not finished, and the end of the
stream that is not seen. -/
def steps (source : StreamReplaceSource) : ℕ :=
  2 * source.text.length + (if source.gWhat = source.what.length then 1 else 0) +
    (if source.eofile then 0 else 1)

/-- What `get` does to a source. -/
def Delivers (N : ℕ) (before : StreamReplaceSource) :
    Option Bytes × StreamReplaceSource → Prop
  | (none, after) => before.pending = [] ∧ Resting after ∧ after.pending = []
  | (some chunk, after) =>
      before.pending = chunk ++ after.pending ∧ Resting after ∧ chunk.length ≤ N ∧
        after.steps ≤ before.steps ∧ (chunk = [] → after.steps < before.steps)

/-! ## The hasty search -/

theorem search_spent {source : StreamReplaceSource} {count : ℤ}
    (isSpent : spent source.nToReplace count = true) (text : Bytes) :
    source.search count text = text := by
  cases text with
  | nil => rfl
  | cons next rest => simp [search, hastyFrom, isSpent]

/-- The searched text is replaced. -/
theorem search_occurrence {source : StreamReplaceSource} (someWhat : source.what ≠ [])
    {count : ℤ} (more : spent source.nToReplace count = false) (text : Bytes) :
    source.search count (source.what ++ text) =
      source.with_ ++ source.search (count - 1) text := by
  cases isWhat : source.what with
  | nil => exact absurd isWhat someWhat
  | cons first others =>
      have occurs : agreeing (first :: others) (first :: (others ++ text)) =
          (first :: others).length :=
        (agreeing_eq_length_iff _ _).mpr (List.prefix_append (first :: others) text)
      simp only [search, isWhat, List.cons_append, hastyFrom, more, occurs, if_true,
        Bool.false_eq_true, if_false, List.length_cons, Nat.add_sub_cancel]
      rw [hastyFrom_skip, List.drop_left]

/-- A difference behind some matched bytes: the first of them is delivered, and the search goes
on behind them. -/
theorem search_mismatch {source : StreamReplaceSource} {matched others : Bytes} {first : Byte}
    (isWhat : source.what = first :: matched ++ others) (some : others ≠ [])
    {count : ℤ} (more : spent source.nToReplace count = false) {byte : Byte} (text : Bytes)
    (different : others.head? ≠ Option.some byte) :
    source.search count (first :: matched ++ byte :: text) =
      first :: source.search count (byte :: text) := by
  have agree : agreeing source.what (first :: (matched ++ byte :: text)) =
      (first :: matched).length := by
    rw [isWhat]
    refine agreeing_append (first :: matched) others (byte :: text) ?_
    rintro other isOther next isNext rfl
    cases isNext
    exact different isOther
  have notWhole : (first :: matched).length ≠ source.what.length := by
    have positive := List.length_pos_of_ne_nil some
    rw [isWhat, List.length_append]
    omega
  have notEnd : (first :: matched).length ≠ (matched ++ byte :: text).length + 1 := by
    simp
  rw [search, List.cons_append, hastyFrom, if_neg (Bool.eq_false_iff.mp more), agree,
    if_neg notWhole, if_neg notEnd, hastyFrom_skip, List.length_cons, Nat.add_sub_cancel,
    List.drop_left]
  rfl

/-- A byte that does not start a match. -/
theorem search_other {source : StreamReplaceSource} (someWhat : source.what ≠ []) {count : ℤ}
    (more : spent source.nToReplace count = false) {byte : Byte} (text : Bytes)
    (different : source.what[0]? ≠ some byte) :
    source.search count (byte :: text) = byte :: source.search count text := by
  have agree : agreeing source.what (byte :: text) = 0 := by
    cases isWhat : source.what with
    | nil => exact absurd isWhat someWhat
    | cons first others =>
        have other : first ≠ byte := by
          rintro rfl
          exact different (by simp [isWhat])
        simp [agreeing, other]
  have positive := List.length_pos_of_ne_nil someWhat
  simp only [search, hastyFrom, more, Bool.false_eq_true, if_false, agree, if_neg positive.ne,
    if_neg (Nat.succ_ne_zero text.length).symm]

/-- A match that is cut by the end of the text is left out. -/
theorem search_cut {source : StreamReplaceSource} {count : ℤ}
    (more : spent source.nToReplace count = false) {matched : ℕ}
    (within : matched < source.what.length) :
    source.search count (source.what.take matched) = [] := by
  have agree := agreeing_append (source.what.take matched) (source.what.drop matched) []
    (by simp)
  rw [List.take_append_drop, List.append_nil, List.length_take_of_le within.le] at agree
  cases isText : source.what.take matched with
  | nil => rfl
  | cons next rest =>
      have isLength : matched = rest.length + 1 := by
        have lengths := congrArg List.length isText
        rwa [List.length_take_of_le within.le] at lengths
      rw [isText] at agree
      simp only [search, hastyFrom, more, Bool.false_eq_true, if_false, agree,
        if_neg within.ne, if_pos isLength]

/-! ## Replacements and the rest of the text -/

/-- A chunk and what is behind it. -/
theorem take_append_drop_chunk (N start : ℕ) (data : Bytes) :
    (data.drop start).take N ++ data.drop (start + ((data.drop start).take N).length) =
      data.drop start := by
  rw [← List.drop_drop]
  exact List.prefix_iff_eq_append.mp (List.take_prefix N (data.drop start))

theorem delivers_getWith {source : StreamReplaceSource} {N : ℕ} (valid : Valid source)
    (within : source.gWith ≤ source.with_.length) (isMatched : source.gWhat = source.what.length)
    (more : spent source.nToReplace source.nCount = false) (positive : 0 < N) :
    Delivers N source (some (source.getWith N).1, (source.getWith N).2) := by
  have someWhat := List.length_pos_of_ne_nil valid.someWhat
  simp only [getWith]
  have chunkLength : ((source.with_.drop source.gWith).take N).length =
      min N (source.with_.length - source.gWith) := by
    simp
  split
  · rename_i isLast
    have wholeChunk : (source.with_.drop source.gWith).take N =
        source.with_.drop source.gWith := by
      apply List.take_of_length_le
      rw [List.length_drop]
      omega
    refine ⟨?_, ⟨⟨valid.someWhat, valid.room, valid.inBuffer, valid.inData, valid.atEnd⟩,
      Nat.zero_le _, Or.inl ⟨rfl, rfl⟩⟩, ?_, ?_, ?_⟩
    · simp only [pending, isMatched, if_true, if_neg someWhat.ne]
      rw [wholeChunk]
      rfl
    · rw [chunkLength]
      exact min_le_left _ _
    · simp only [steps, isMatched, if_true, if_neg someWhat.ne]
      exact Nat.add_le_add_right (Nat.le_succ _) _
    · intro _
      simp only [steps, isMatched, if_true, if_neg someWhat.ne]
      exact Nat.add_lt_add_right (Nat.lt_succ_self _) _
  · rename_i notLast
    refine ⟨?_, ⟨⟨valid.someWhat, valid.room, valid.inBuffer, valid.inData, valid.atEnd⟩,
      (not_le.mp notLast).le, Or.inr ⟨isMatched, more⟩⟩, ?_, ?_, ?_⟩
    · simp only [pending, isMatched, if_true]
      rw [← List.append_assoc, take_append_drop_chunk]
      rfl
    · rw [chunkLength]
      exact min_le_left _ _
    · exact le_rfl
    · intro isEmpty
      change (source.with_.drop source.gWith).take N = [] at isEmpty
      rw [isEmpty, List.length_nil] at chunkLength notLast
      omega

/-- A source without replacements that are left is in no match. -/
theorem Resting.phase_of_spent {source : StreamReplaceSource} (resting : Resting source)
    (isSpent : spent source.nToReplace source.nCount = true) :
    source.gWhat = 0 ∧ source.gWith = 0 ∧ source.gWhat ≠ source.what.length := by
  rcases resting.phase with ⟨noMatch, noWith⟩ | ⟨_, more⟩
  · refine ⟨noMatch, noWith, ?_⟩
    rw [noMatch]
    exact (List.length_pos_of_ne_nil resting.someWhat).ne
  · rw [isSpent] at more
    cases more

/-- A source without replacements that are left delivers its text. -/
theorem pending_spent {source : StreamReplaceSource}
    (isSpent : spent source.nToReplace source.nCount = true)
    (noMatch : source.gWhat ≠ source.what.length) : source.pending = source.text := by
  rw [pending, if_neg noMatch, search_spent isSpent]

theorem delivers_getDirect {source : StreamReplaceSource} {N : ℕ} (resting : Resting source)
    (isSpent : spent source.nToReplace source.nCount = true) (positive : 0 < N) :
    Delivers N source (source.getDirect N) := by
  obtain ⟨isZero, noWith, noMatch⟩ := resting.phase_of_spent isSpent
  simp only [getDirect]
  split
  · rename_i isEmpty
    have noData : source.iBuf.drop source.gibuf = [] := by
      rw [isEmpty, List.drop_length]
    split
    · rename_i isEnd
      have noPending : source.pending = [] := by
        rw [pending_spent isSpent noMatch, text, noData, resting.atEnd isEnd, List.append_nil]
      exact ⟨noPending, resting, noPending⟩
    · rename_i notEnd
      refine ⟨?_, ⟨⟨resting.someWhat, resting.room, resting.inBuffer, resting.inData, ?_⟩,
        resting.gWith_le, Or.inl ⟨isZero, noWith⟩⟩, List.length_take_le _ _, ?_, ?_⟩
      · refine (pending_spent isSpent noMatch).trans (Eq.trans ?_
          (congrArg (source.ist.take N ++ ·) (Eq.symm (pending_spent isSpent noMatch))))
        simp only [text]
        rw [noData, List.nil_append, List.nil_append, List.take_append_drop]
      · intro isShort
        exact List.drop_eq_nil_of_le (of_decide_eq_true isShort).le
      · simp only [steps, text, noData, if_neg noMatch, List.nil_append, List.length_drop]
        split
        · omega
        · omega
      · intro noChunk
        have noStream : source.ist = [] := by
          rcases List.take_eq_nil_iff.mp noChunk with isZero | isNil
          · exact absurd isZero positive.ne'
          · exact isNil
        simp [steps, text, noData, noMatch, noStream, positive, notEnd]
  · rename_i someData
    have inData := resting.inData
    have chunkLength : ((source.iBuf.drop source.gibuf).take N).length =
        min N (source.iBuf.length - source.gibuf) := by
      simp
    refine ⟨?_, ⟨⟨resting.someWhat, resting.room, resting.inBuffer, ?_, resting.atEnd⟩,
      resting.gWith_le, Or.inl ⟨isZero, noWith⟩⟩, List.length_take_le _ _, ?_, ?_⟩
    · refine (pending_spent isSpent noMatch).trans (Eq.trans ?_
        (congrArg ((source.iBuf.drop source.gibuf).take N ++ ·)
          (Eq.symm (pending_spent isSpent noMatch))))
      simp only [text]
      rw [← List.append_assoc, take_append_drop_chunk]
    · simp only [chunkLength]
      omega
    · simp only [steps, text, if_neg noMatch, List.length_append, List.length_drop, chunkLength]
      omega
    · intro noChunk
      change (source.iBuf.drop source.gibuf).take N = [] at noChunk
      rw [noChunk, List.length_nil] at chunkLength
      omega

/-! ## The search in the buffer -/

namespace GetState

/-- The text from the start of the match on. -/
def rest (state : GetState) : Bytes :=
  state.source.what.take state.source.gWhat ++ state.source.text

/-- The loop of `get` in a call for `N` bytes of a source.  The matched bytes are in the buffer
between `tmp` and the get pointer. -/
structure Searching (N : ℕ) (before : StreamReplaceSource) (state : GetState) : Prop
    extends Valid state.source where
  noWith : state.source.gWith = 0
  partly : state.source.gWhat < state.source.what.length
  more : spent state.source.nToReplace state.source.nCount = false
  matched : 0 < state.source.gWhat → state.source.iBuf.drop state.tmp =
    state.source.what.take state.source.gWhat ++ state.source.iBuf.drop state.source.gibuf
  outBound : state.out.length ≤ N
  inMatch : 0 < state.source.gWhat → state.out.length < N
  isPending : before.pending =
    state.out ++ state.source.search state.source.nCount state.rest
  fewer : 2 * state.rest.length + (if state.source.eofile then 0 else 1) ≤ before.steps

/-- What decreases in each round: the fills that are left, the bytes that are left, and the
room for the result. -/
def measure (N : ℕ) (state : GetState) : ℕ :=
  (state.source.ist.length + (if state.source.eofile then 0 else 1)) *
      state.source.what.length +
    (state.source.iBuf.length - state.source.gibuf) + state.source.ist.length +
    (N - state.out.length)

/-- What a part of a round does: it makes progress, changes nothing, or leaves the loop. -/
def Part (N : ℕ) (before : StreamReplaceSource) (state : GetState) (idle : Prop) :
    GetState ⊕ (Option Bytes × StreamReplaceSource) → Prop
  | .inl next => Searching N before next ∧
      (measure N next < measure N state ∨ next = state ∧ idle)
  | .inr result => Delivers N before result

/-- A source behind a search delivers what the search has not. -/
theorem Searching.pending_source {N : ℕ} {before : StreamReplaceSource} {state : GetState}
    (searching : Searching N before state) (noMatch : state.source.gWhat = 0) :
    state.source.pending = state.source.search state.source.nCount state.rest ∧
      Resting state.source ∧ state.source.steps ≤ before.steps := by
  have isRest : state.rest = state.source.text := by
    rw [rest, noMatch, List.take_zero, List.nil_append]
  have different : state.source.gWhat ≠ state.source.what.length := searching.partly.ne
  have fewer := searching.fewer
  refine ⟨?_, ⟨searching.toValid, ?_, Or.inl ⟨noMatch, searching.noWith⟩⟩, ?_⟩
  · rw [pending, if_neg different, isRest]
  · rw [searching.noWith]
    exact Nat.zero_le _
  · rw [isRest] at fewer
    simpa [steps, different] using fewer

/-- The search goes back to the start of the match when the buffer is empty. -/
theorem Searching.restart {N : ℕ} {before : StreamReplaceSource} {state : GetState}
    (searching : Searching N before state)
    (isEmpty : state.source.gibuf = state.source.iBuf.length) :
    let source := if 0 < state.source.gWhat then
      { state.source with gWhat := 0, gibuf := state.tmp } else state.source
    Searching N before { state with source := source } ∧ source.gWhat = 0 ∧
      source.what = state.source.what ∧
      source.iBuf.drop source.gibuf = state.source.what.take state.source.gWhat ∧
      measure N { state with source := source } = measure N state + state.source.gWhat := by
  have noData : state.source.iBuf.drop state.source.gibuf = [] := by
    rw [isEmpty, List.drop_length]
  split
  · rename_i inMatch
    have matched := searching.matched inMatch
    rw [noData, List.append_nil] at matched
    have sameRest : ({ state with
        source := { state.source with gWhat := 0, gibuf := state.tmp } } : GetState).rest =
        state.rest := by
      simp only [rest, text, List.take_zero, List.nil_append, matched, noData]
    have inData : state.tmp ≤ state.source.iBuf.length := by
      by_contra outside
      rw [List.drop_eq_nil_of_le (not_le.mp outside).le] at matched
      have isLength := congrArg List.length matched
      rw [List.length_nil, List.length_take_of_le searching.partly.le] at isLength
      exact inMatch.ne isLength
    have keptLength := congrArg List.length matched
    rw [List.length_drop, List.length_take_of_le searching.partly.le] at keptLength
    refine ⟨?_, rfl, rfl, matched, ?_⟩
    · exact
      { someWhat := searching.someWhat
        room := searching.room
        inBuffer := searching.inBuffer
        inData := inData
        atEnd := searching.atEnd
        noWith := searching.noWith
        partly := List.length_pos_of_ne_nil searching.someWhat
        more := searching.more
        matched := fun positive => absurd positive (Nat.lt_irrefl 0)
        outBound := searching.outBound
        inMatch := fun positive => absurd positive (Nat.lt_irrefl 0)
        isPending := by rw [sameRest]; exact searching.isPending
        fewer := by rw [sameRest]; exact searching.fewer }
    · simp only [measure, isEmpty]
      omega
  · rename_i noMatch
    have isZero := Nat.eq_zero_of_not_pos noMatch
    refine ⟨searching, isZero, rfl, ?_, ?_⟩
    · rw [noData, isZero, List.take_zero]
    · rw [isZero, Nat.add_zero]

/-- What the search delivers when it breaks off at the end of the stream. -/
theorem Searching.delivers_end {N : ℕ} {before : StreamReplaceSource} {state : GetState}
    (searching : Searching N before state) (noMatch : state.source.gWhat = 0)
    (noPending : state.source.search state.source.nCount state.rest = []) :
    Delivers N before (if state.out.isEmpty then none else some state.out, state.source) := by
  obtain ⟨isSearch, resting, steps⟩ := searching.pending_source noMatch
  have isPending := searching.isPending
  rw [noPending, List.append_nil] at isPending
  rw [noPending] at isSearch
  cases isOut : state.out with
  | nil => exact ⟨isPending.trans isOut, resting, isSearch⟩
  | cons byte others =>
      rw [isOut] at isPending
      refine ⟨?_, resting, isOut ▸ searching.outBound, steps, fun isEmpty => ?_⟩
      · rw [isPending, isSearch, List.append_nil]
      · cases isEmpty

/-- Filling the buffer reads the next bytes of the stream, or sees its end. -/
theorem Searching.fill {N : ℕ} {before : StreamReplaceSource} {state : GetState}
    (searching : Searching N before state) (noMatch : state.source.gWhat = 0)
    (room : (state.source.iBuf.drop state.source.gibuf).length < state.source.what.length)
    (notEnd : state.source.eofile = false) :
    Searching N before { state with source := state.source.fillBufFromStream.2 } ∧
      measure N { state with source := state.source.fillBufFromStream.2 } +
        state.source.what.length ≤ measure N state := by
  have inBuffer := searching.room
  simp only [fillBufFromStream, notEnd, Bool.false_eq_true, if_false]
  generalize isKept : state.source.iBuf.drop state.source.gibuf = kept at room ⊢
  have sameRest : ({ state with
      source := { state.source with
        ist := state.source.ist.drop (state.source.ibufsize - kept.length)
        eofile := decide (state.source.ist.length < state.source.ibufsize - kept.length)
        iBuf := kept ++ state.source.ist.take (state.source.ibufsize - kept.length)
        gibuf := 0 } } : GetState).rest = state.rest := by
    simp only [rest, text, List.drop_zero, isKept, List.append_assoc, List.take_append_drop]
  constructor
  · exact
      { someWhat := searching.someWhat
        room := searching.room
        inBuffer := by
          simp only [List.length_append, List.length_take]
          omega
        inData := Nat.zero_le _
        atEnd := fun isShort => List.drop_eq_nil_of_le (of_decide_eq_true isShort).le
        noWith := searching.noWith
        partly := searching.partly
        more := searching.more
        matched := fun positive => absurd noMatch positive.ne'
        outBound := searching.outBound
        inMatch := searching.inMatch
        isPending := by rw [sameRest]; exact searching.isPending
        fewer := by
          have fewer := searching.fewer
          simp only [notEnd, Bool.false_eq_true, if_false] at fewer
          rw [sameRest]
          split
          · omega
          · exact fewer }
  · have dataLength := congrArg List.length isKept
    rw [List.length_drop] at dataLength
    simp only [measure, notEnd, Bool.false_eq_true, if_false, List.length_drop,
      List.length_append, List.length_take, Nat.sub_zero]
    have fillsLeft : state.source.ist.length - (state.source.ibufsize - kept.length) +
        (if decide (state.source.ist.length < state.source.ibufsize - kept.length) = true then 0
          else 1) ≤ state.source.ist.length := by
      split
      · rename_i isShort
        have less := of_decide_eq_true isShort
        omega
      · rename_i isLong
        have atLeast := not_lt.mp fun less => isLong (decide_eq_true less)
        omega
    have product := Nat.mul_le_mul_right state.source.what.length fillsLeft
    have expand : (state.source.ist.length + 1) * state.source.what.length =
        state.source.ist.length * state.source.what.length + state.source.what.length :=
      Nat.succ_mul _ _
    omega

/-- The buffer is filled when it is empty. -/
theorem Searching.refill {N : ℕ} {before : StreamReplaceSource} {state : GetState}
    (searching : Searching N before state) :
    Part N before state (state.source.gibuf < state.source.iBuf.length) state.refill := by
  simp only [GetState.refill]
  by_cases isEmpty : state.source.gibuf = state.source.iBuf.length
  · rw [if_pos isEmpty]
    have restart := searching.restart isEmpty
    generalize (if 0 < state.source.gWhat then
      { state.source with gWhat := 0, gibuf := state.tmp } else state.source) = source at restart ⊢
    obtain ⟨restarted, noMatch, sameWhat, isKept, isMeasure⟩ := restart
    by_cases isEnd : source.eofile = true
    · have isFill : source.fillBufFromStream = (none, source) := by
        rw [fillBufFromStream, if_pos isEnd]
      have noStream : source.ist = [] := restarted.atEnd isEnd
      have isRest : ({ state with source := source } : GetState).rest =
          source.what.take state.source.gWhat := by
        simp only [rest, text, noMatch, List.take_zero, List.nil_append, isKept, sameWhat,
          noStream, List.append_nil]
      rw [isFill]
      refine restarted.delivers_end noMatch ?_
      rw [isRest]
      exact search_cut restarted.more (sameWhat ▸ searching.partly)
    · have notEnd := Bool.eq_false_iff.mpr isEnd
      have isFill : source.fillBufFromStream =
          (some (source.fillBufFromStream.1.getD 0), source.fillBufFromStream.2) := by
        simp [fillBufFromStream, notEnd]
      have keptLength : (source.iBuf.drop source.gibuf).length < source.what.length := by
        rw [isKept, List.length_take_of_le searching.partly.le, sameWhat]
        exact searching.partly
      obtain ⟨filled, less⟩ := restarted.fill noMatch keptLength notEnd
      rw [isFill]
      refine ⟨filled, Or.inl ?_⟩
      have partly := searching.partly
      simp only [sameWhat] at less
      omega
  · rw [if_neg isEmpty]
    exact ⟨searching, Or.inr ⟨rfl, lt_of_le_of_ne searching.inData isEmpty⟩⟩

section Byte

variable {N : ℕ} {before : StreamReplaceSource} {state : GetState} {byte : Byte}

/-- The next byte of the buffer, in front of the rest. -/
theorem data_cons (isByte : state.source.iBuf[state.source.gibuf]? = some byte) :
    state.source.gibuf < state.source.iBuf.length ∧
      state.source.iBuf.drop state.source.gibuf =
        byte :: state.source.iBuf.drop (state.source.gibuf + 1) := by
  obtain ⟨inData, isElem⟩ := List.getElem?_eq_some_iff.mp isByte
  exact ⟨inData, by rw [← isElem]; exact List.drop_eq_getElem_cons inData⟩

/-- A byte that goes on with the match. -/
theorem Searching.matches (searching : Searching N before state)
    (outLess : state.out.length < N)
    (isByte : state.source.iBuf[state.source.gibuf]? = some byte)
    (same : state.source.what[state.source.gWhat]? = some byte) :
    let source := { state.source with
      gWhat := state.source.gWhat + 1
      gibuf := state.source.gibuf + 1 }
    let tmp := if state.source.gWhat = 0 then state.source.gibuf else state.tmp
    let next : GetState := { state with source := source, tmp := tmp }
    Valid source ∧ next.rest = state.rest ∧
      source.iBuf.drop tmp = source.what.take source.gWhat ++ source.iBuf.drop source.gibuf ∧
      measure N next < measure N state := by
  obtain ⟨inData, isData⟩ := data_cons isByte
  have oneMore : state.source.what.take (state.source.gWhat + 1) =
      state.source.what.take state.source.gWhat ++ [byte] := by
    rw [List.take_add_one, same]
    rfl
  refine ⟨⟨searching.someWhat, searching.room, searching.inBuffer, inData, searching.atEnd⟩,
    ?_, ?_, ?_⟩
  · simp only [rest, text, oneMore, isData, List.append_assoc, List.cons_append,
      List.nil_append]
  · simp only [oneMore, List.append_assoc, List.singleton_append]
    rw [← isData]
    split
    · rename_i isFirst
      rw [isFirst, List.take_zero, List.nil_append]
    · rename_i notFirst
      exact searching.matched (Nat.pos_of_ne_zero notFirst)
  · simp only [measure]
    omega

/-- The last byte of the searched text. -/
theorem Searching.delivers_match (searching : Searching N before state)
    (outLess : state.out.length < N)
    (isByte : state.source.iBuf[state.source.gibuf]? = some byte)
    (same : state.source.what[state.source.gWhat]? = some byte)
    (isLast : state.source.gWhat + 1 = state.source.what.length) :
    let source := { state.source with
      gWhat := state.source.gWhat + 1
      gibuf := state.source.gibuf + 1 }
    Delivers N before (if state.out.isEmpty then (some (source.getWith N).1, (source.getWith N).2)
      else (some state.out, source)) := by
  obtain ⟨valid, sameRest, _, _⟩ := searching.matches outLess isByte same
  intro source
  have isMatched : source.gWhat = source.what.length := isLast
  have noWith : source.gWith = 0 := searching.noWith
  have more : spent source.nToReplace source.nCount = false := searching.more
  have whole : state.rest = source.what ++ source.text := by
    rw [← sameRest]
    simp only [rest, isLast, List.take_length]
    rfl
  have isPending : before.pending = state.out ++ source.pending := by
    rw [searching.isPending, whole, pending, if_pos isMatched, noWith, List.drop_zero]
    exact congrArg (state.out ++ ·) (search_occurrence valid.someWhat more source.text)
  have resting : Resting source :=
    ⟨valid, noWith ▸ Nat.zero_le _, Or.inr ⟨isMatched, more⟩⟩
  have fewer : source.steps < before.steps := by
    have bound := searching.fewer
    have someWhat : 0 < source.what.length := List.length_pos_of_ne_nil valid.someWhat
    have isSteps : source.steps =
        2 * source.text.length + 1 + (if state.source.eofile then 0 else 1) := by
      rw [steps, if_pos isMatched]
    rw [whole, List.length_append] at bound
    omega
  cases isOut : state.out with
  | nil =>
      have delivers := delivers_getWith valid resting.gWith_le isMatched more
        (Nat.zero_lt_of_lt outLess)
      rw [isOut, List.nil_append] at isPending
      obtain ⟨chunk, after, bounded, less, _⟩ := delivers
      exact ⟨isPending.trans chunk, after, bounded, less.trans fewer.le,
        fun _ => lt_of_le_of_lt less fewer⟩
  | cons first others =>
      rw [isOut] at isPending
      exact ⟨isPending, resting, isOut ▸ searching.outBound, fewer.le, fun _ => fewer⟩

/-- The match and the first byte that is matched. -/
theorem Searching.match_cons (searching : Searching N before state)
    (inMatch : 0 < state.source.gWhat) :
    ∃ first matched, state.source.what.take state.source.gWhat = first :: matched ∧
      state.source.iBuf[state.tmp]? = some first := by
  obtain ⟨first, others, isWhat⟩ := List.exists_cons_of_ne_nil searching.someWhat
  obtain ⟨matched, isMatched⟩ : ∃ rest, state.source.what.take state.source.gWhat =
      first :: rest := by
    rw [isWhat, ← Nat.succ_pred_eq_of_pos inMatch]
    exact ⟨_, List.take_succ_cons⟩
  have atHead := congrArg List.head? (searching.matched inMatch)
  rw [List.head?_drop, isMatched] at atHead
  exact ⟨first, matched, isMatched, atHead⟩

/-- The search goes on behind a match that is broken off. -/
theorem Searching.search_rest (searching : Searching N before state) {next first : Byte}
    {matched : Bytes} (rest : Bytes)
    (isMatched : state.source.what.take state.source.gWhat = first :: matched)
    (different : state.source.what[state.source.gWhat]? ≠ some next) :
    state.source.search state.source.nCount (first :: matched ++ next :: rest) =
      first :: state.source.search state.source.nCount (next :: rest) := by
  have notEmpty : state.source.what.drop state.source.gWhat ≠ [] := by
    intro isEmpty
    exact absurd (List.drop_eq_nil_iff.mp isEmpty) (not_le.mpr searching.partly)
  have isHead : (state.source.what.drop state.source.gWhat).head? ≠ some next := by
    rwa [List.head?_drop]
  have split : state.source.what =
      first :: matched ++ state.source.what.drop state.source.gWhat := by
    rw [← isMatched, List.take_append_drop]
  exact search_mismatch split notEmpty searching.more rest isHead

/-- A byte that breaks off the match: the first byte of the match is delivered. -/
theorem Searching.breaks (searching : Searching N before state)
    (isByte : state.source.iBuf[state.source.gibuf]? = some byte)
    (different : state.source.what[state.source.gWhat]? ≠ some byte)
    (inMatch : 0 < state.source.gWhat) :
    let next : GetState :=
      { state with
        source := { state.source with gWhat := 0 }
        out := state.out ++ (state.source.iBuf[state.tmp]?).toList }
    state.tmp ≠ state.source.gibuf ∧ Searching N before next ∧
      measure N next < measure N state := by
  obtain ⟨inData, isData⟩ := data_cons isByte
  have matched := searching.matched inMatch
  have outLess := searching.inMatch inMatch
  obtain ⟨first, matchedRest, isMatched, atTmp⟩ := searching.match_cons inMatch
  have isRest : state.rest = first :: matchedRest ++
      byte :: (state.source.iBuf.drop (state.source.gibuf + 1) ++ state.source.ist) := by
    rw [rest, text, isMatched, isData]
    rfl
  have isSearch := searching.search_rest
    (state.source.iBuf.drop (state.source.gibuf + 1) ++ state.source.ist) isMatched different
  have nextRest : ({ state with
      source := { state.source with gWhat := 0 }
      out := state.out ++ (state.source.iBuf[state.tmp]?).toList } : GetState).rest =
      byte :: (state.source.iBuf.drop (state.source.gibuf + 1) ++ state.source.ist) := by
    simp only [rest, text, List.take_zero, List.nil_append, isData, List.cons_append]
  refine ⟨?_, ?_, ?_⟩
  · intro same
    rw [same, isMatched] at matched
    have lengths := congrArg List.length matched
    simp only [List.length_append, List.length_cons] at lengths
    omega
  · exact
      { someWhat := searching.someWhat
        room := searching.room
        inBuffer := searching.inBuffer
        inData := searching.inData
        atEnd := searching.atEnd
        noWith := searching.noWith
        partly := List.length_pos_of_ne_nil searching.someWhat
        more := searching.more
        matched := fun positive => absurd positive (Nat.lt_irrefl 0)
        outBound := by
          rw [atTmp]
          simpa using outLess
        inMatch := fun positive => absurd positive (Nat.lt_irrefl 0)
        isPending := by
          rw [nextRest, searching.isPending, isRest, isSearch, atTmp]
          simp [search]
        fewer := by
          have bound := searching.fewer
          rw [isRest] at bound
          rw [nextRest]
          simp only [List.length_append, List.length_cons] at bound ⊢
          omega }
  · rw [atTmp]
    simp only [measure, Option.toList_some, List.length_append, List.length_singleton]
    omega

/-- A byte outside of a match is delivered. -/
theorem Searching.passes (searching : Searching N before state)
    (outLess : state.out.length < N)
    (isByte : state.source.iBuf[state.source.gibuf]? = some byte)
    (different : state.source.what[state.source.gWhat]? ≠ some byte)
    (noMatch : state.source.gWhat = 0) :
    let next : GetState :=
      { state with
        source := { state.source with gibuf := state.source.gibuf + 1 }
        out := state.out ++ [byte] }
    Searching N before next ∧ measure N next < measure N state := by
  obtain ⟨inData, isData⟩ := data_cons isByte
  have isRest : state.rest =
      byte :: (state.source.iBuf.drop (state.source.gibuf + 1) ++ state.source.ist) := by
    rw [rest, text, noMatch, isData]
    rfl
  have nextRest : ({ state with
      source := { state.source with gibuf := state.source.gibuf + 1 }
      out := state.out ++ [byte] } : GetState).rest =
      state.source.iBuf.drop (state.source.gibuf + 1) ++ state.source.ist := by
    simp only [rest, text, noMatch, List.take_zero, List.nil_append]
  have isSearch := search_other searching.someWhat searching.more
    (state.source.iBuf.drop (state.source.gibuf + 1) ++ state.source.ist) (noMatch ▸ different)
  constructor
  · exact
      { someWhat := searching.someWhat
        room := searching.room
        inBuffer := searching.inBuffer
        inData := inData
        atEnd := searching.atEnd
        noWith := searching.noWith
        partly := searching.partly
        more := searching.more
        matched := fun positive => absurd noMatch positive.ne'
        outBound := by simpa using outLess
        inMatch := fun positive => absurd noMatch positive.ne'
        isPending := by
          rw [nextRest, searching.isPending, isRest, isSearch]
          simp [search]
        fewer := by
          have bound := searching.fewer
          rw [isRest] at bound
          rw [nextRest]
          simp only [List.length_cons] at bound ⊢
          omega }
  · simp only [measure, List.length_append, List.length_singleton]
    omega

end Byte

/-- The comparison of the next byte, if there is one. -/
theorem Searching.matchByte {N : ℕ} {before : StreamReplaceSource} {state : GetState}
    (searching : Searching N before state) (outLess : state.out.length < N) :
    Part N before state (state.source.iBuf.length ≤ state.source.gibuf) (state.matchByte N) := by
  simp only [GetState.matchByte]
  cases isByte : state.source.iBuf[state.source.gibuf]? with
  | none => exact ⟨searching, Or.inr ⟨rfl, List.getElem?_eq_none_iff.mp isByte⟩⟩
  | some byte =>
      simp only
      by_cases same : state.source.what[state.source.gWhat]? = some byte
      · rw [if_pos same]
        by_cases isLast : state.source.gWhat + 1 = state.source.what.length
        · have delivers := searching.delivers_match outLess isByte same isLast
          rw [if_pos isLast]
          cases isEmpty : state.out.isEmpty with
          | true => simpa only [isEmpty, if_true, Part] using delivers
          | false => simpa only [isEmpty, Bool.false_eq_true, if_false, Part] using delivers
        · obtain ⟨valid, sameRest, matched, less⟩ := searching.matches outLess isByte same
          have partly := searching.partly
          rw [if_neg isLast]
          exact
            ⟨{ toValid := valid
               noWith := searching.noWith
               partly := lt_of_le_of_ne partly isLast
               more := searching.more
               matched := fun _ => matched
               outBound := searching.outBound
               inMatch := fun _ => outLess
               isPending := by rw [sameRest]; exact searching.isPending
               fewer := by rw [sameRest]; exact searching.fewer },
              Or.inl less⟩
      · rw [if_neg same]
        by_cases inMatch : 0 < state.source.gWhat
        · obtain ⟨notAt, breaks, less⟩ := searching.breaks isByte same inMatch
          rw [if_pos inMatch, if_pos ⟨notAt, outLess⟩]
          exact ⟨breaks, Or.inl less⟩
        · obtain ⟨passes, less⟩ := searching.passes outLess isByte same
            (Nat.eq_zero_of_not_pos inMatch)
          rw [if_neg inMatch]
          exact ⟨passes, Or.inl less⟩

theorem out_refill {state next : GetState} (filled : state.refill = .inl next) :
    next.out = state.out := by
  simp only [GetState.refill] at filled
  split at filled
  · split at filled
    · cases filled
    · cases filled
      rfl
  · cases filled
    rfl

/-- A round of the loop of `get`. -/
theorem Searching.round {N : ℕ} (positive : 0 < N) {before : StreamReplaceSource}
    {state : GetState} (searching : Searching N before state) :
    WhileLoop.Round (Searching N before) (measure N) (Delivers N before) state
      (state.round N) := by
  simp only [GetState.round]
  by_cases outLess : state.out.length < N
  · rw [if_pos outLess]
    have refilled := searching.refill
    cases isRefill : state.refill with
    | inr result =>
        rw [isRefill] at refilled
        exact refilled
    | inl next =>
        rw [isRefill] at refilled
        obtain ⟨searchingNext, progress⟩ := refilled
        have matched := searchingNext.matchByte ((out_refill isRefill).symm ▸ outLess)
        simp only
        cases isMatch : next.matchByte N with
        | inr result =>
            rw [isMatch] at matched
            exact matched
        | inl last =>
            rw [isMatch] at matched
            refine ⟨matched.1, ?_⟩
            rcases progress with less | ⟨rfl, someData⟩
            · rcases matched.2 with lessLast | ⟨rfl, _⟩
              · exact lessLast.trans less
              · exact less
            · rcases matched.2 with lessLast | ⟨_, noData⟩
              · exact lessLast
              · exact absurd someData (not_lt.mpr noData)
  · rw [if_neg outLess]
    have noMatch : state.source.gWhat = 0 :=
      Nat.eq_zero_of_not_pos (mt searching.inMatch outLess)
    obtain ⟨isSearch, resting, fewer⟩ := searching.pending_source noMatch
    refine ⟨?_, resting, searching.outBound, fewer, fun isEmpty => ?_⟩
    · rw [searching.isPending, isSearch]
    · rw [isEmpty] at outLess
      exact absurd positive outLess

end GetState

/-! ## Reads -/

/-- A call of `get` returns, and delivers the next bytes. -/
theorem Resting.get {source : StreamReplaceSource} (resting : Resting source) {N : ℕ}
    (positive : 0 < N) :
    ∃ result, source.get N = some result ∧ Delivers N source result := by
  simp only [StreamReplaceSource.get]
  by_cases isSpent : spent source.nToReplace source.nCount = true
  · rw [if_pos isSpent]
    exact ⟨_, rfl, delivers_getDirect resting isSpent positive⟩
  · have more := Bool.eq_false_iff.mpr isSpent
    rw [if_neg isSpent]
    by_cases isMatched : source.gWhat = source.what.length
    · rw [if_pos isMatched]
      exact ⟨_, rfl, delivers_getWith resting.toValid resting.gWith_le isMatched more positive⟩
    · rw [if_neg isMatched]
      have noMatch : source.gWhat = 0 ∧ source.gWith = 0 :=
        resting.phase.resolve_right fun inWith => isMatched inWith.1
      have isRest : ({ source := source, out := [], tmp := 0 } : GetState).rest = source.text := by
        rw [GetState.rest, noMatch.1, List.take_zero, List.nil_append]
      have searching : GetState.Searching N source ⟨source, [], 0⟩ :=
        { toValid := resting.toValid
          noWith := noMatch.2
          partly := noMatch.1 ▸ List.length_pos_of_ne_nil resting.someWhat
          more := more
          matched := fun inMatch => absurd noMatch.1 inMatch.ne'
          outBound := Nat.zero_le _
          inMatch := fun inMatch => absurd noMatch.1 inMatch.ne'
          isPending := by rw [isRest, pending, if_neg isMatched]; rfl
          fewer := by rw [isRest, steps, if_neg isMatched]; exact le_rfl }
      apply WhileLoop.runUntil_of_rounds (fun state holds => holds.round positive) searching
      have fills : source.ist.length + (if source.eofile then 0 else 1) ≤
          source.ist.length + 1 := by
        split
        · exact Nat.le_succ _
        · exact le_rfl
      have product := Nat.mul_le_mul_right source.what.length fills
      simp only [GetState.measure, getFuel, List.length_nil, Nat.sub_zero]
      omega

/-- The loop of `read` in a call for `N` bytes of a source. -/
structure ReadState.Reading (N : ℕ) (before : StreamReplaceSource) (state : ReadState) : Prop where
  resting : Resting state.source
  outBound : state.out.length ≤ N
  isPending : before.pending = state.out ++ state.source.pending

/-- What `read` does to a source: it delivers the next bytes that are pending, or -1 when there
are none. -/
def Reads (N : ℕ) (before : StreamReplaceSource) :
    Option (Option Bytes × StreamReplaceSource) → Prop
  | none => False
  | some (delivered, after) =>
      delivered = (if before.pending = [] ∧ 0 < N then none else some (before.pending.take N)) ∧
        after.pending = before.pending.drop N ∧ Resting after

theorem ReadState.Reading.round {N : ℕ} {before : StreamReplaceSource} {state : ReadState}
    (reading : ReadState.Reading N before state) :
    WhileLoop.Round (ReadState.Reading N before)
      (fun state => N - state.out.length + state.source.steps) (Reads N before) state
      (state.round N) := by
  have isPending := reading.isPending
  simp only [ReadState.round]
  by_cases outLess : state.out.length < N
  · rw [if_pos outLess]
    obtain ⟨⟨delivered, after⟩, isGet, delivers⟩ := reading.resting.get (Nat.sub_pos_of_lt outLess)
    rw [isGet]
    cases delivered with
    | none =>
        obtain ⟨noPending, resting, isEnd⟩ := delivers
        rw [noPending, List.append_nil] at isPending
        refine ⟨?_, ?_, resting⟩
        · rw [isPending]
          cases isOut : state.out with
          | nil => simp [Nat.zero_lt_of_lt outLess]
          | cons byte others =>
              rw [isOut] at outLess
              simp [List.take_of_length_le outLess.le]
        · rw [isPending, isEnd, List.drop_eq_nil_of_le outLess.le]
    | some chunk =>
        obtain ⟨isChunk, resting, bounded, fewer, progress⟩ := delivers
        refine ⟨⟨resting, ?_, ?_⟩, ?_⟩
        · rw [List.length_append]
          omega
        · rw [isPending, isChunk, List.append_assoc]
        · simp only [List.length_append]
          cases chunk with
          | nil =>
              have less := progress rfl
              simp only [List.length_nil, Nat.add_zero]
              omega
          | cons byte others =>
              simp only [List.length_cons] at bounded ⊢
              omega
  · rw [if_neg outLess]
    have isFull : state.out.length = N := le_antisymm reading.outBound (not_lt.mp outLess)
    refine ⟨?_, ?_, reading.resting⟩
    · rw [if_neg, isPending, ← isFull, List.take_left]
      rintro ⟨noPending, positive⟩
      rw [noPending] at isPending
      have noOut := (List.append_eq_nil_iff.mp isPending.symm).1
      rw [noOut] at isFull
      exact positive.ne isFull
    · rw [isPending, ← isFull, List.drop_left]

/-- A call of `read` returns, and delivers the next bytes that are pending. -/
theorem Resting.read {source : StreamReplaceSource} (resting : Resting source) (N : ℕ) :
    Reads N source (source.read N) := by
  have reading : ReadState.Reading N source ⟨source, []⟩ := ⟨resting, Nat.zero_le _, rfl⟩
  have enough : N - ([] : Bytes).length + source.steps < source.readFuel N := by
    simp only [steps, readFuel, text, List.length_append, List.length_drop, List.length_nil]
    split
    · split
      · omega
      · omega
    · split
      · omega
      · omega
  obtain ⟨result, returns, post⟩ := WhileLoop.runUntil_of_rounds
    (fun state holds => ReadState.Reading.round holds) reading enough
  rw [StreamReplaceSource.read, returns]
  exact post

end StreamReplaceSource

end miutil

end Wdb2ts
