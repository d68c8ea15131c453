import Wdb2ts.StreamReads

/-!
# Streams refine strings

The stream delivers what `replaceString` makes of the whole text, unless the search in the
stream leaves bytes out.
-/

namespace Wdb2ts

namespace miutil

open Replacement

/-! ## Whole strings -/

section Strings

variable {what : Bytes} (with_ : Bytes) (nToReplace : ℤ)

/-- A text in which the searched text is not found stays as it is. -/
theorem replaceFrom_of_findText_none {rest : Bytes} (notFound : findText what rest = none)
    (count : ℤ) : replaceFrom what with_ nToReplace count 0 rest = rest := by
  induction rest with
  | nil => rfl
  | cons next rest ih =>
      simp only [findText] at notFound
      split at notFound
      · cases notFound
      · rename_i absent
        rw [List.isPrefixOf_iff_prefix] at absent
        rw [replaceFrom, if_neg absent, ih (Option.map_eq_none_iff.mp notFound), ite_self]

/-- The first place where the searched text is found is replaced. -/
theorem replaceFrom_of_findText_some (someWhat : what ≠ []) {rest : Bytes} {pos : ℕ}
    (found : findText what rest = some pos) {count : ℤ}
    (more : spent nToReplace count = false) :
    pos + what.length ≤ rest.length ∧
      replaceFrom what with_ nToReplace count 0 rest =
        rest.take pos ++ with_ ++
          replaceFrom what with_ nToReplace (count - 1) 0 (rest.drop (pos + what.length)) := by
  have positive := List.length_pos_of_ne_nil someWhat
  induction rest generalizing pos with
  | nil => simp [findText, someWhat] at found
  | cons next rest ih =>
      simp only [findText] at found
      split at found
      · rename_i isPrefix
        have occurs := List.isPrefixOf_iff_prefix.mp isPrefix
        cases found
        refine ⟨by simpa using occurs.length_le, ?_⟩
        rw [replaceFrom, if_neg (Bool.eq_false_iff.mp more), if_pos occurs, replaceFrom_skip]
        obtain ⟨length, isLength⟩ := Nat.exists_eq_succ_of_ne_zero positive.ne'
        simp [isLength]
      · rename_i absent
        rw [List.isPrefixOf_iff_prefix] at absent
        obtain ⟨later, foundLater, rfl⟩ := Option.map_eq_some_iff.mp found
        obtain ⟨within, isReplaced⟩ := ih foundLater
        constructor
        · simp only [List.length_cons]
          omega
        · have isDrop : (next :: rest).drop (later + 1 + what.length) =
              rest.drop (later + what.length) := by
            rw [Nat.add_right_comm]
            rfl
          rw [replaceFrom, if_neg (Bool.eq_false_iff.mp more), if_neg absent, isReplaced, isDrop]
          rfl

/-- The loop of `replaceString`: the result in front of the search, and the text behind it. -/
def ReplaceState.Replacing (what result : Bytes) (state : ReplaceState) : Prop :=
  ∃ front back, state.str = front ++ back ∧
    state.pos = (findText what back).map (· + front.length) ∧
    result = front ++ replaceFrom what with_ nToReplace state.nCount 0 back

/-- What is left of the string behind the place that was found. -/
def ReplaceState.measure (state : ReplaceState) : ℕ :=
  match state.pos with
  | none => 0
  | some pos => state.str.length - pos + 1

variable {with_} {nToReplace}

theorem findFrom_append (front back : Bytes) :
    findFrom (front ++ back) what front.length =
      (findText what back).map (· + front.length) := by
  have within : ¬(front ++ back).length < front.length := by simp
  rw [findFrom, if_neg within, List.drop_left]

theorem ReplaceState.Replacing.round (someWhat : what ≠ []) {result : Bytes}
    {state : ReplaceState} (replacing : state.Replacing with_ nToReplace what result) :
    WhileLoop.Round (Replacing with_ nToReplace what result) measure (· = result) state
      (state.round what with_ nToReplace) := by
  have positive := List.length_pos_of_ne_nil someWhat
  obtain ⟨front, back, isStr, isPos, isResult⟩ := replacing
  simp only [ReplaceState.round]
  cases found : findText what back with
  | none =>
      rw [found, Option.map_none] at isPos
      rw [isPos]
      exact isStr.trans (by rw [isResult, replaceFrom_of_findText_none _ _ found])
  | some place =>
      rw [found, Option.map_some] at isPos
      rw [isPos]
      simp only
      by_cases isSpent : spent nToReplace state.nCount = true
      · rw [if_pos isSpent]
        have unchanged : replaceFrom what with_ nToReplace state.nCount 0 back = back := by
          cases back with
          | nil => rfl
          | cons next rest => rw [replaceFrom, if_pos isSpent]
        exact isStr.trans (by rw [isResult, unchanged])
      · obtain ⟨within, isReplaced⟩ := replaceFrom_of_findText_some with_ nToReplace someWhat
          found (Bool.eq_false_iff.mpr isSpent)
        have isNext : state.str.take (place + front.length) ++ with_ ++
            state.str.drop (place + front.length + what.length) =
            (front ++ back.take place ++ with_) ++ back.drop (place + what.length) := by
          rw [isStr, Nat.add_comm place, Nat.add_assoc, List.take_length_add_append,
            List.drop_length_add_append]
        have isLength : place + front.length + with_.length =
            (front ++ back.take place ++ with_).length := by
          simp only [List.length_append, List.length_take]
          omega
        rw [if_neg isSpent, isNext, isLength]
        refine ⟨⟨_, _, rfl, findFrom_append _ _, ?_⟩, ?_⟩
        · rw [isResult, isReplaced]
          simp only [List.append_assoc]
        · simp only [measure, findFrom_append, isPos, isStr]
          cases findText what (back.drop (place + what.length)) with
          | none => exact Nat.succ_pos _
          | some later =>
              simp only [Option.map_some, List.length_append, List.length_take,
                List.length_drop]
              omega

/-- `replaceString` returns, and replaces the occurrences from left to right up to the limit. -/
theorem replaceString_eq (someWhat : what ≠ []) (str : Bytes) :
    replaceString str what with_ nToReplace =
      some (replaceFrom what with_ nToReplace nToReplace 0 str) := by
  have replacing : ReplaceState.Replacing with_ nToReplace what
      (replaceFrom what with_ nToReplace nToReplace 0 str)
      ⟨str, findFrom str what 0, nToReplace⟩ :=
    ⟨[], str, rfl, findFrom_append [] str, rfl⟩
  have enough : ReplaceState.measure ⟨str, findFrom str what 0, nToReplace⟩ < str.length + 2 := by
    simp only [ReplaceState.measure]
    split
    · exact Nat.succ_pos _
    · omega
  obtain ⟨result, returns, isResult⟩ := WhileLoop.runUntil_of_rounds
    (fun state holds => ReplaceState.Replacing.round someWhat holds) replacing enough
  rw [replaceString, returns, isResult]

end Strings

/-! ## Streams -/

namespace StreamReplaceSource

/-- What reads of the given sizes deliver of a text: the next bytes of the text, and -1 behind
its last byte. -/
def chunks : List ℕ → Bytes → List (Option Bytes)
  | [], _ => []
  | N :: sizes, text =>
      (if text = [] ∧ 0 < N then none else some (text.take N)) :: chunks sizes (text.drop N)

/-- Reads deliver what is pending. -/
theorem reads_eq_chunks {source : StreamReplaceSource} (resting : Resting source)
    (sizes : List ℕ) : reads sizes source = some (chunks sizes source.pending) := by
  induction sizes generalizing source with
  | nil => rfl
  | cons N sizes ih =>
      have read := resting.read N
      rw [reads]
      cases isRead : source.read N with
      | none =>
          rw [isRead] at read
          exact read.elim
      | some result =>
          rw [isRead] at read
          obtain ⟨isDelivered, isPending, restingAfter⟩ := read
          rw [chunks, ← isDelivered, ← isPending]
          exact congrArg (· >>= fun later => some (result.1 :: later)) (ih restingAfter)

/-- One read that is larger than a text delivers it. -/
theorem chunks_singleton {text : Bytes} {N : ℕ} (large : text.length < N) :
    chunks [N] text = [if text = [] then none else some text] := by
  have positive : 0 < N := Nat.zero_lt_of_lt large
  simp [chunks, positive, List.take_of_length_le large.le]

/-- Texts with the same chunks are equal. -/
theorem chunks_injective {first second : Bytes}
    (same : ∀ sizes, chunks sizes first = chunks sizes second) : first = second := by
  have once := same [max first.length second.length + 1]
  rw [chunks_singleton (Nat.lt_succ_of_le (le_max_left _ _)),
    chunks_singleton (Nat.lt_succ_of_le (le_max_right _ _))] at once
  by_cases noFirst : first = []
  · by_cases noSecond : second = []
    · rw [noFirst, noSecond]
    · simp [noFirst, noSecond] at once
  · by_cases noSecond : second = []
    · simp [noFirst, noSecond] at once
    · simpa [noFirst, noSecond] using once

theorem resting_new (inStream : Bytes) {what : Bytes} (someWhat : what ≠ []) (with_ : Bytes)
    (nToReplace bufSize : ℤ) : Resting (new inStream what with_ nToReplace bufSize) where
  someWhat := someWhat
  room := by
    simp only [new]
    omega
  inBuffer := Nat.zero_le _
  inData := le_rfl
  atEnd isEnd := Bool.noConfusion isEnd
  gWith_le := Nat.zero_le _
  phase := Or.inl ⟨rfl, rfl⟩

theorem pending_new (inStream : Bytes) {what : Bytes} (someWhat : what ≠ []) (with_ : Bytes)
    (nToReplace bufSize : ℤ) :
    (new inStream what with_ nToReplace bufSize).pending =
      hastyFrom what with_ nToReplace nToReplace 0 inStream := by
  have notMatched : (new inStream what with_ nToReplace bufSize).gWhat ≠
      (new inStream what with_ nToReplace bufSize).what.length :=
    (List.length_pos_of_ne_nil someWhat).ne
  rw [pending, if_neg notMatched]
  rfl

/-- Whatever the sizes of the reads, a stream delivers the text with its occurrences replaced. -/
def Refines (inStream what with_ : Bytes) (nToReplace bufSize : ℤ) : Prop :=
  ∀ sizes, ∃ replaced, replaceString inStream what with_ nToReplace = some replaced ∧
    reads sizes (new inStream what with_ nToReplace bufSize) = some (chunks sizes replaced)

theorem refines_iff_hastyFrom {inStream what with_ : Bytes} (someWhat : what ≠ [])
    {nToReplace bufSize : ℤ} :
    Refines inStream what with_ nToReplace bufSize ↔
      hastyFrom what with_ nToReplace nToReplace 0 inStream =
        replaceFrom what with_ nToReplace nToReplace 0 inStream := by
  have delivered := reads_eq_chunks (resting_new inStream someWhat with_ nToReplace bufSize)
  simp only [Refines, delivered, replaceString_eq someWhat, pending_new inStream someWhat,
    Option.some.injEq]
  constructor
  · intro refines
    apply chunks_injective
    intro sizes
    obtain ⟨replaced, rfl, same⟩ := refines sizes
    exact same
  · intro equal sizes
    exact ⟨_, rfl, congrArg _ equal⟩

/-- A stream agrees with `replaceString`, for every replacement, buffer and size of the reads,
exactly when the search never leaves bytes out.  For a replacement that is not shorter than the
searched text it agrees exactly then. -/
theorem refines_iff {what : Bytes} (someWhat : what ≠ []) (inStream : Bytes) (nToReplace : ℤ) :
    ((∀ with_ bufSize, Refines inStream what with_ nToReplace bufSize) ↔
        Safe what nToReplace nToReplace 0 inStream) ∧
      ∀ with_ bufSize, what.length ≤ with_.length →
        (Refines inStream what with_ nToReplace bufSize ↔
          Safe what nToReplace nToReplace 0 inStream) := by
  have each : ∀ with_ bufSize, what.length ≤ with_.length →
      (Refines inStream what with_ nToReplace bufSize ↔
        Safe what nToReplace nToReplace 0 inStream) := by
    intro with_ bufSize notShorter
    rw [refines_iff_hastyFrom someWhat]
    exact hastyFrom_eq_iff someWhat notShorter fun positive => positive.le
  refine ⟨⟨?_, ?_⟩, each⟩
  · intro refines
    exact (each what 0 le_rfl).mp (refines what 0)
  · intro safe with_ bufSize
    exact (refines_iff_hastyFrom someWhat).mpr (hastyFrom_eq_replaceFrom safe)

theorem refines_iff_oneByteBuffer :
    Refines (Bytes.str "bab") (Bytes.str "ab") (Bytes.str "xyz") 0 1 ∧
      ∀ with_ bufSize, Refines (Bytes.str "bab") (Bytes.str "ab") with_ 0 bufSize := by
  have safe : Safe (Bytes.str "ab") 0 0 0 (Bytes.str "bab") := by decide
  have iffs := refines_iff (show Bytes.str "ab" ≠ [] by decide) (Bytes.str "bab") 0
  exact ⟨(iffs.2 (Bytes.str "xyz") 1 (by decide)).mpr safe, iffs.1.mpr safe⟩

/-- A match that fails behind its second byte loses this byte. -/
theorem not_refines_lostByte :
    ¬Refines (Bytes.str "abx") (Bytes.str "abc") (Bytes.str "abcd") 0 512 := by
  intro refines
  obtain ⟨replaced, isReplaced, isRead⟩ := refines [4]
  have unchanged : replaceString (Bytes.str "abx") (Bytes.str "abc") (Bytes.str "abcd") 0 =
      some (Bytes.str "abx") := by
    decide +kernel
  have lost : reads [4] (new (Bytes.str "abx") (Bytes.str "abc") (Bytes.str "abcd") 0 512) =
      some [some (Bytes.str "ax")] := by
    decide +kernel
  rw [unchanged] at isReplaced
  cases isReplaced
  rw [lost] at isRead
  revert isRead
  decide

/-- A lost byte and a missed occurrence can make up for each other, when the replacement is
shorter than the searched text. -/
example : Refines (Bytes.str "aaab") (Bytes.str "aab") (Bytes.str "ab") 0 512 ∧
    ¬Safe (Bytes.str "aab") 0 0 0 (Bytes.str "aaab") :=
  ⟨(refines_iff_hastyFrom (by decide)).mpr (by decide), by decide⟩

end StreamReplaceSource

end miutil

end Wdb2ts
