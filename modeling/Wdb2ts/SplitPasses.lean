import Wdb2ts.Floats
import Wdb2ts.Miutil

/-!
# The two passes of splitting

`splitstr` counts the separators of a text, makes room for one more element than there are, and
stores the elements in a second pass.  Both passes count with an `int`.
-/

namespace Wdb2ts

namespace miutil.splitstr

variable (sep stringProtector : Byte)

/-! ## The passes -/

/-- An increment of an `int`, which is not defined behind the last one. -/
def increment (number : ℤ) : Option ℤ := if number < INT_MAX then some (number + 1) else none

/-- The loop of `count`. -/
def count : Bytes → (ch : Byte) → (inString : Bool) → (cnt : ℤ) → Option ℤ
  | [], _, _, cnt => some cnt
  | byte :: rest, ch, inString, cnt =>
      if byte = stringProtector ∧ ch ≠ Bytes.chr '\\' then count rest byte (!inString) cnt
      else if byte = sep ∧ inString = false then do
        let cnt ← increment cnt
        count rest byte inString cnt
      else count rest byte inString cnt

/-- `data[i] = elem`, which is not defined outside the vector. -/
def store (data : List Bytes) (i : ℤ) (elem : Bytes) : Option (List Bytes) :=
  if 0 ≤ i ∧ i < data.length then some (data.set i.toNat elem) else none

/-- The loop of `splitstr` with the last assignment.  `ost` is what was written to the stream. -/
def fill : Bytes → (ch : Byte) → (inString : Bool) → (ost : Bytes) → (i : ℤ) → List Bytes →
    Option (List Bytes)
  | [], _, _, ost, i, data => store data i (trimstr ost blanks)
  | byte :: rest, ch, inString, ost, i, data =>
      if byte = stringProtector ∧ ch ≠ Bytes.chr '\\' then
        fill rest byte (!inString) (ost ++ [byte]) i data
      else if inString then fill rest byte inString (ost ++ [byte]) i data
      else if byte ≠ sep then fill rest byte inString (ost ++ [byte]) i data
      else do
        let data ← store data i (trimstr ost blanks)
        let i ← increment i
        fill rest byte inString [] i data

/-- `splitstr` with its vector, or nothing where its behaviour is not defined. -/
def passes (text : Bytes) : Option (List Bytes) := do
  let n ← count sep stringProtector text (Bytes.chr (Char.ofNat 0)) false 0
  let size ← increment n
  fill sep stringProtector text (Bytes.chr (Char.ofNat 0)) false [] 0
    (List.replicate size.toNat [])

/-! ## The fields of a text -/

/-- The protecting character at a position opens or closes a protected region, unless a backslash
is in front of it. -/
def isToggle (text : Bytes) (position : ℕ) : Bool :=
  decide (text[position]? = some stringProtector) &&
    decide ((text.take position).getLast? ≠ some (Bytes.chr '\\'))

/-- A protected region is open at a position. -/
def isProtected (text : Bytes) (position : ℕ) : Bool :=
  decide ((List.range position).countP (isToggle stringProtector text) % 2 = 1)

/-- A separator outside the protected regions. -/
def isSeparator (text : Bytes) (position : ℕ) : Bool :=
  decide (text[position]? = some sep) && !isToggle stringProtector text position &&
    !isProtected stringProtector text position

/-- The positions of the separators outside the protected regions. -/
def separators (text : Bytes) : List ℕ :=
  (List.range text.length).filter (isSeparator sep stringProtector text)

/-- The trimmed text from a position up to another one. -/
def between (text : Bytes) (start stop : ℕ) : Bytes :=
  trimstr ((text.take stop).drop start) blanks

/-- The trimmed texts between consecutive positions, with the ends of the text. -/
def fieldsAt (text : Bytes) (start : ℕ) (positions : List ℕ) : List Bytes :=
  List.zipWith (between text) (start :: positions.map (· + 1)) (positions ++ [text.length])

/-- The passes stay inside the vector, and return the fields of the text. -/
def Splits (text : Bytes) : Prop :=
  ∃ data, passes sep stringProtector text = some data ∧
    data.length = (separators sep stringProtector text).length + 1 ∧
    data = fieldsAt text 0 (separators sep stringProtector text)

/-! ## The separators that both passes find -/

/-- The positions of the separators in the rest of a text. -/
def scan : Bytes → (ch : Byte) → (inString : Bool) → (position : ℕ) → List ℕ
  | [], _, _, _ => []
  | byte :: rest, ch, inString, position =>
      if byte = stringProtector ∧ ch ≠ Bytes.chr '\\' then
        scan rest byte (!inString) (position + 1)
      else if byte = sep ∧ inString = false then
        position :: scan rest byte inString (position + 1)
      else scan rest byte inString (position + 1)

variable {sep stringProtector}

/-- The byte in front of the rest of a text, or zero. -/
def lastOf (before : Bytes) : Byte := before.getLast?.getD (Bytes.chr (Char.ofNat 0))

theorem lastOf_ne_iff (before : Bytes) :
    lastOf before ≠ Bytes.chr '\\' ↔ before.getLast? ≠ some (Bytes.chr '\\') := by
  rw [lastOf]
  cases before.getLast? with
  | none => exact iff_of_true (by decide) nofun
  | some byte => simp

theorem isProtected_succ (text : Bytes) (position : ℕ) :
    isProtected stringProtector text (position + 1) =
      (isProtected stringProtector text position ^^ isToggle stringProtector text position) := by
  rw [isProtected, isProtected, List.range_succ, List.countP_append]
  cases toggle : isToggle stringProtector text position with
  | true =>
      rw [List.countP_singleton, if_pos toggle, Bool.xor_true, Bool.eq_iff_iff, decide_eq_true_eq,
        Bool.not_eq_true', decide_eq_false_iff_not]
      omega
  | false => simp [toggle]

section Positions

variable {text before rest : Bytes} {byte : Byte}

theorem isToggle_iff (split : text = before ++ byte :: rest) :
    isToggle stringProtector text before.length = true ↔
      byte = stringProtector ∧ lastOf before ≠ Bytes.chr '\\' := by
  rw [isToggle, lastOf_ne_iff, split]
  simp

theorem isSeparator_iff (split : text = before ++ byte :: rest) :
    isSeparator sep stringProtector text before.length = true ↔
      byte = sep ∧ isToggle stringProtector text before.length = false ∧
        isProtected stringProtector text before.length = false := by
  rw [isSeparator, split]
  simp [and_assoc]

/-- The passes find the separators of the rest of a text, when their variables tell about what
is in front of it. -/
theorem scan_eq (split : text = before ++ rest) :
    scan sep stringProtector rest (lastOf before)
        (isProtected stringProtector text before.length) before.length =
      (List.range' before.length rest.length).filter (isSeparator sep stringProtector text) := by
  induction rest generalizing before with
  | nil => rfl
  | cons byte rest induction =>
      have splitNext : text = (before ++ [byte]) ++ rest := by simpa using split
      have next := induction splitNext
      have last : lastOf (before ++ [byte]) = byte := by simp [lastOf]
      rw [last, List.length_append, List.length_singleton, isProtected_succ] at next
      have toggles : isToggle stringProtector text before.length = true ↔ _ := isToggle_iff split
      have separates : isSeparator sep stringProtector text before.length = true ↔ _ :=
        isSeparator_iff split
      rw [scan, List.length_cons, List.range'_succ, List.filter_cons]
      cases toggle : isToggle stringProtector text before.length with
      | true =>
          have notSeparator : isSeparator sep stringProtector text before.length = false := by
            rw [Bool.eq_false_iff, ne_eq, separates, toggle]
            simp
          rw [if_pos (toggles.mp toggle), notSeparator, if_neg Bool.false_ne_true, ← next, toggle,
            Bool.xor_true]
      | false =>
          rw [toggle, Bool.xor_false] at next
          have notToggle : ¬(byte = stringProtector ∧ lastOf before ≠ Bytes.chr '\\') := by
            rw [← toggles, toggle]
            exact Bool.false_ne_true
          rw [if_neg notToggle, ← next]
          by_cases separator : isSeparator sep stringProtector text before.length = true
          · have here := separates.mp separator
            rw [if_pos separator, if_pos ⟨here.1, here.2.2⟩]
          · have notHere : ¬(byte = sep ∧
                isProtected stringProtector text before.length = false) := by
              rw [separates, toggle] at separator
              simpa using separator
            rw [if_neg separator, if_neg notHere]

/-- The separators of a text are those that the passes find from its start. -/
theorem scan_start (text : Bytes) :
    scan sep stringProtector text (Bytes.chr (Char.ofNat 0)) false 0 =
      separators sep stringProtector text := by
  have atStart : text = [] ++ text := rfl
  rw [separators, List.range_eq_range']
  exact scan_eq atStart

end Positions

/-! ## What the passes count and store -/

/-- The first pass counts the separators as far as an `int` reaches. -/
theorem count_eq (rest : Bytes) (ch : Byte) (inString : Bool) (position : ℕ) {cnt : ℤ}
    (inRange : cnt ≤ INT_MAX) :
    count sep stringProtector rest ch inString cnt =
      if cnt + (scan sep stringProtector rest ch inString position).length ≤ INT_MAX then
        some (cnt + (scan sep stringProtector rest ch inString position).length) else none := by
  induction rest generalizing ch inString position cnt with
  | nil => simp [count, scan, inRange]
  | cons byte rest induction =>
      rw [count, scan]
      split
      next => exact induction _ _ _ inRange
      next =>
        split
        next =>
          rw [increment, List.length_cons]
          split
          next below =>
            rw [Option.bind_eq_bind, Option.bind_some, induction _ _ (position + 1) below]
            push_cast
            rw [add_right_comm, add_assoc]
          next full =>
            have tooMany : ¬cnt + ((scan sep stringProtector rest byte inString
                (position + 1)).length + 1 : ℕ) ≤ INT_MAX := by omega
            rw [if_neg tooMany]
            rfl
        next => exact induction _ _ _ inRange

theorem store_of_lt {data : List Bytes} {stored : ℕ} (below : stored < data.length)
    (elem : Bytes) : store data stored elem = some (data.set stored elem) := by
  have inVector : (stored : ℤ) < data.length := by exact_mod_cast below
  rw [store, if_pos ⟨Int.natCast_nonneg stored, inVector⟩, Int.toNat_natCast]

theorem take_succ_set {data : List Bytes} {stored : ℕ} (below : stored < data.length)
    (elem : Bytes) : (data.set stored elem).take (stored + 1) = data.take stored ++ [elem] := by
  have length_front : (data.take stored ++ [elem]).length = stored + 1 := by
    rw [List.length_append, List.length_take, List.length_singleton]
    omega
  rw [List.set_eq_take_append_cons_drop, if_pos below, ← List.singleton_append,
    ← List.append_assoc, List.take_left' length_front]

/-- The second pass stores the elements behind those that are stored already. -/
theorem fill_eq (rest : Bytes) (ch : Byte) (inString : Bool) (position : ℕ) (ost : Bytes)
    {stored : ℕ} {data : List Bytes}
    (room : data.length =
      stored + (scan sep stringProtector rest ch inString position).length + 1)
    (inRange : (stored : ℤ) + (scan sep stringProtector rest ch inString position).length ≤
      INT_MAX) :
    fill sep stringProtector rest ch inString ost stored data =
      some (data.take stored ++ splitLoop sep stringProtector rest ch inString ost) := by
  induction rest generalizing ch inString position ost stored data with
  | nil =>
      have full : data.length = stored + 1 := room
      have below : stored < data.length := by omega
      rw [fill, splitLoop, store_of_lt below, List.set_eq_take_append_cons_drop, if_pos below,
        List.drop_eq_nil_of_le full.le]
  | cons byte rest induction =>
      rw [scan] at room inRange
      rw [fill, splitLoop]
      split
      next toggle =>
        rw [if_pos toggle] at room inRange
        exact induction _ _ _ _ room inRange
      next noToggle =>
        rw [if_neg noToggle] at room inRange
        cases inString with
        | true =>
            rw [if_neg (by simp)] at room inRange
            rw [if_pos rfl, if_pos rfl]
            exact induction _ _ _ _ room inRange
        | false =>
            rw [if_neg Bool.false_ne_true, if_neg Bool.false_ne_true]
            by_cases isSep : byte = sep
            · rw [if_pos ⟨isSep, rfl⟩, List.length_cons] at room inRange
              have below : stored < data.length := by omega
              have next : (stored : ℤ) < INT_MAX := by
                push_cast at inRange
                omega
              have roomNext : (data.set stored (trimstr ost blanks)).length =
                  stored + 1 + (scan sep stringProtector rest byte false (position + 1)).length +
                    1 := by
                rw [List.length_set]
                omega
              have inRangeNext : ((stored + 1 : ℕ) : ℤ) +
                  (scan sep stringProtector rest byte false (position + 1)).length ≤ INT_MAX := by
                push_cast at inRange ⊢
                omega
              have filled := induction byte false (position + 1) [] roomNext inRangeNext
              rw [if_neg (not_not_intro isSep), if_neg (not_not_intro isSep), store_of_lt below,
                increment]
              simp only [Option.bind_eq_bind, Option.bind_some, if_pos next]
              rw [take_succ_set below, Nat.cast_add, Nat.cast_one, List.append_assoc] at filled
              exact filled
            · rw [if_neg fun both => isSep both.1] at room inRange
              rw [if_pos isSep, if_pos isSep]
              exact induction _ _ _ _ room inRange

/-- The elements are the texts between the separators. -/
theorem splitLoop_eq {text before rest : Bytes} {start : ℕ} (split : text = before ++ rest)
    (inside : start ≤ before.length) (ch : Byte) (inString : Bool) :
    splitLoop sep stringProtector rest ch inString ((text.take before.length).drop start) =
      fieldsAt text start (scan sep stringProtector rest ch inString before.length) := by
  induction rest generalizing before start ch inString with
  | nil =>
      rw [List.append_nil] at split
      rw [splitLoop, scan, split]
      rfl
  | cons byte rest induction =>
      have splitNext : text = (before ++ [byte]) ++ rest := by simpa using split
      have insideNext : start ≤ (before ++ [byte]).length := by
        rw [List.length_append]
        omega
      have longer : (text.take before.length).drop start ++ [byte] =
          (text.take (before ++ [byte]).length).drop start := by
        rw [splitNext, List.take_left, List.append_assoc, List.take_left,
          List.drop_append_of_le_length inside]
      have next := induction splitNext insideNext
      rw [← longer, List.length_append, List.length_singleton] at next
      rw [splitLoop, scan]
      split
      next => exact next byte _
      next =>
        cases inString with
        | true =>
            rw [if_pos rfl, if_neg (by simp)]
            exact next byte true
        | false =>
            rw [if_neg Bool.false_ne_true]
            by_cases isSep : byte = sep
            · have fresh : before.length + 1 ≤ (before ++ [byte]).length := by simp
              have behind := induction splitNext fresh byte false
              have empty : (text.take (before ++ [byte]).length).drop (before.length + 1) = [] := by
                apply List.drop_eq_nil_of_le
                simp
              rw [empty, List.length_append, List.length_singleton] at behind
              rw [if_neg (not_not_intro isSep), if_pos ⟨isSep, rfl⟩, behind]
              rfl
            · rw [if_pos isSep, if_neg fun both => isSep both.1]
              exact next byte false

/-- Where its counters fit an `int`, the two passes return what one pass does. -/
theorem passes_eq (text : Bytes) :
    passes sep stringProtector text =
      if ((separators sep stringProtector text).length : ℤ) < INT_MAX then
        some (miutil.splitstr text sep stringProtector) else none := by
  have counted : count sep stringProtector text (Bytes.chr (Char.ofNat 0)) false 0 = _ :=
    count_eq text _ false 0 (by decide)
  rw [scan_start, zero_add] at counted
  rw [passes, counted, Option.bind_eq_bind]
  by_cases fits : ((separators sep stringProtector text).length : ℤ) < INT_MAX
  · have inRange : ((0 : ℕ) : ℤ) +
        (scan sep stringProtector text (Bytes.chr (Char.ofNat 0)) false 0).length ≤ INT_MAX := by
      rw [scan_start, Nat.cast_zero, zero_add]
      exact fits.le
    have room : (List.replicate
        (((separators sep stringProtector text).length : ℤ) + 1).toNat ([] : Bytes)).length =
        0 + (scan sep stringProtector text (Bytes.chr (Char.ofNat 0)) false 0).length + 1 := by
      rw [List.length_replicate, scan_start]
      omega
    have filled := fill_eq text _ _ _ [] room inRange
    rw [if_pos fits, if_pos fits.le, Option.bind_some, increment, if_pos fits,
      Option.bind_some]
    exact filled
  · rw [if_neg fits]
    split
    next => rw [Option.bind_some, increment, if_neg fits]; rfl
    next => rfl

theorem splitstr_eq_fieldsAt (text : Bytes) :
    miutil.splitstr text sep stringProtector =
      fieldsAt text 0 (separators sep stringProtector text) := by
  have atStart : text = [] ++ text := rfl
  rw [← scan_start]
  exact splitLoop_eq atStart le_rfl _ _

theorem length_fieldsAt (text : Bytes) (start : ℕ) (positions : List ℕ) :
    (fieldsAt text start positions).length = positions.length + 1 := by
  simp [fieldsAt]

/-- The passes return the fields of a text exactly when one more than its separators fits an
`int`. -/
theorem splits_iff (text : Bytes) (sep stringProtector : Byte) :
    Splits sep stringProtector text ↔
      (separators sep stringProtector text).length + 1 < 2 ^ 31 := by
  have bound : (separators sep stringProtector text).length + 1 < 2 ^ 31 ↔
      ((separators sep stringProtector text).length : ℤ) < INT_MAX := by
    rw [INT_MAX]
    omega
  rw [bound, Splits, passes_eq]
  constructor
  · rintro ⟨data, returned, _⟩
    by_contra full
    rw [if_neg full] at returned
    contradiction
  · intro fits
    refine ⟨_, if_pos fits, ?_, splitstr_eq_fieldsAt text⟩
    rw [splitstr_eq_fieldsAt, length_fieldsAt]

/-! ## A text of separators -/

theorem length_scan_replicate (different : sep ≠ stringProtector) (number : ℕ) (ch : Byte)
    (position : ℕ) :
    (scan sep stringProtector (List.replicate number sep) ch false position).length = number := by
  induction number generalizing ch position with
  | zero => rfl
  | succ number induction => simp [List.replicate_succ, scan, different, induction]

/-- The counters do not hold the number of elements of a text with as many separators as the last
`int`. -/
theorem not_splits_separators :
    ¬Splits (Bytes.chr ',') (Bytes.chr '"') (List.replicate 2147483647 (Bytes.chr ',')) := by
  rintro ⟨data, returned, _⟩
  rw [passes_eq, ← scan_start, length_scan_replicate (by decide)] at returned
  have full : ¬((2147483647 : ℕ) : ℤ) < INT_MAX := by
    rw [INT_MAX]
    norm_num
  rw [if_neg full] at returned
  contradiction

end miutil.splitstr

end Wdb2ts
