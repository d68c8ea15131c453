import Wdb2ts.DecodedFields
import Wdb2ts.Lib.Parentheses

/-!
# Providers of the database

A row of the database has a provider and a place text, in which the place name stands behind a group
in parentheses.  The documentation of `ProviderList` says which item of a list the row belongs to.
-/

namespace Wdb2ts

open Parentheses (Balanced behindClosing)

variable {F : Type} [RowReading F]

/-! ## Place texts -/

/-- A text has a group in parentheses that starts at its first one, and something behind it. -/
structure ClosedGroup (pointPlacename behind : Bytes) : Prop where
  parts : ∃ front inside, Bytes.chr '(' ∉ front ∧ Balanced (Bytes.chr '(') (Bytes.chr ')') inside ∧
    pointPlacename = front ++ Bytes.chr '(' :: (inside ++ Bytes.chr ')' :: behind)

/-- The group that starts at the first parenthesis of a text is never closed. -/
def NeverClosed (pointPlacename : Bytes) : Prop :=
  Bytes.chr '(' ∈ pointPlacename ∧ ∀ behind, ¬ClosedGroup pointPlacename behind

/-- The place name of a place text. -/
inductive RowPlacename (pointPlacename : Bytes) : Bytes → Prop where
  | noGroup (absent : Bytes.chr '(' ∉ pointPlacename) : RowPlacename pointPlacename []
  | behind {behind : Bytes} (closed : ClosedGroup pointPlacename behind) :
      RowPlacename pointPlacename (trim behind)

theorem behindParentheses_eq (text : Bytes) (depth : ℕ) :
    behindParentheses text depth = behindClosing (Bytes.chr '(') (Bytes.chr ')') text depth := by
  induction text generalizing depth with
  | nil =>
      cases depth with
      | zero => rfl
      | succ depth => rfl
  | cons byte rest ih =>
      cases depth with
      | zero => rfl
      | succ depth =>
          rw [behindParentheses, Parentheses.behindClosing_cons, ih, ih, ih]

theorem parentheses_differ : Bytes.chr '(' ≠ Bytes.chr ')' := by decide

/-- The text in front of the first parenthesis is determined. -/
theorem front_unique {front other rest otherRest : Bytes} (absent : Bytes.chr '(' ∉ front)
    (otherAbsent : Bytes.chr '(' ∉ other)
    (same : front ++ Bytes.chr '(' :: rest = other ++ Bytes.chr '(' :: otherRest) :
    rest = otherRest := by
  have found := findByte_append absent rest
  rw [same, findByte_append otherAbsent] at found
  have parts := List.append_inj same (Option.some.inj found).symm
  exact (List.cons.inj parts.2).2

/-- The group of a text is closed exactly when the scanner gets behind it. -/
theorem closedGroup_iff {front rest behind : Bytes} (absent : Bytes.chr '(' ∉ front) :
    ClosedGroup (front ++ Bytes.chr '(' :: rest) behind ↔
      behindParentheses rest 1 = some behind := by
  rw [behindParentheses_eq, Parentheses.behindClosing_one_iff parentheses_differ]
  constructor
  · rintro ⟨other, inside, otherAbsent, balanced, same⟩
    exact ⟨inside, balanced, front_unique absent otherAbsent same⟩
  · rintro ⟨inside, balanced, rfl⟩
    exact ⟨front, inside, absent, balanced, rfl⟩

namespace ProviderItem

/-- A row is decoded to its provider and its place name, unless its group is never closed. -/
structure DecodedFromWdb (provider pointPlacename : Bytes)
    (decoded : Except RowException ProviderItem) : Prop where
  throws : (∃ exception, decoded = .error exception) ↔ NeverClosed pointPlacename
  item : ∀ item, decoded = .ok item →
    item.provider = trim provider ∧ RowPlacename pointPlacename item.placename

variable (F) {pointPlacename : Bytes}

theorem decodeFromWdb_noGroup (provider : Bytes) (absent : Bytes.chr '(' ∉ pointPlacename) :
    decodeFromWdb F provider pointPlacename = .ok ⟨trim provider, []⟩ := by
  rw [decodeFromWdb, findByte_eq_none absent]

theorem decodeFromWdb_group (provider rest : Bytes) {front : Bytes}
    (absent : Bytes.chr '(' ∉ front) :
    (∃ behind, behindParentheses rest 1 = some behind ∧
        decodeFromWdb F provider (front ++ Bytes.chr '(' :: rest) =
          .ok ⟨trim provider, trim behind⟩) ∨
      behindParentheses rest 1 = none ∧ ∃ exception,
        decodeFromWdb F provider (front ++ Bytes.chr '(' :: rest) = .error exception := by
  have behindFront : (front ++ Bytes.chr '(' :: rest).drop (front.length + 1) = rest := by
    rw [List.drop_append, List.drop_of_length_le (by omega), List.nil_append,
      Nat.add_sub_cancel_left]
    rfl
  rw [decodeFromWdb, findByte_append absent]
  dsimp only
  rw [behindFront]
  cases scanned : behindParentheses rest 1 with
  | none => exact Or.inr ⟨rfl, _, rfl⟩
  | some behind => exact Or.inl ⟨behind, rfl, rfl⟩

/-- A row that has a place name is decoded to it. -/
theorem decodeFromWdb_of_rowPlacename (provider : Bytes) {placename : Bytes}
    (isPlacename : RowPlacename pointPlacename placename) :
    decodeFromWdb F provider pointPlacename = .ok ⟨trim provider, placename⟩ := by
  cases isPlacename with
  | noGroup absent => exact decodeFromWdb_noGroup F provider absent
  | @behind behind closed =>
      obtain ⟨front, inside, absent, balanced, rfl⟩ := closed.parts
      have isClosed := (closedGroup_iff absent).mp closed
      rcases decodeFromWdb_group F provider (inside ++ Bytes.chr ')' :: behind) absent with
        ⟨other, scanned, decoded⟩ | ⟨scanned, -⟩
      · rw [isClosed] at scanned
        cases scanned
        exact decoded
      · rw [isClosed] at scanned
        cases scanned

/-- A row that is decoded has a place name, and a row that is not has a group that is never
closed. -/
theorem decodeFromWdb_cases (provider pointPlacename : Bytes) :
    (∃ placename, RowPlacename pointPlacename placename ∧
        decodeFromWdb F provider pointPlacename = .ok ⟨trim provider, placename⟩) ∨
      NeverClosed pointPlacename ∧
        ∃ exception, decodeFromWdb F provider pointPlacename = .error exception := by
  by_cases member : Bytes.chr '(' ∈ pointPlacename
  · obtain ⟨front, rest, rfl, absent⟩ := List.eq_append_cons_of_mem member
    rcases decodeFromWdb_group F provider rest absent with
      ⟨behind, scanned, decoded⟩ | ⟨scanned, throws⟩
    · exact Or.inl ⟨_, .behind ((closedGroup_iff absent).mpr scanned), decoded⟩
    · refine Or.inr ⟨⟨member, fun behind closed => ?_⟩, throws⟩
      rw [(closedGroup_iff absent).mp closed] at scanned
      cases scanned
  · exact Or.inl ⟨[], .noGroup member, decodeFromWdb_noGroup F provider member⟩

theorem not_neverClosed {placename : Bytes}
    (isPlacename : RowPlacename pointPlacename placename) : ¬NeverClosed pointPlacename := by
  intro never
  cases isPlacename with
  | noGroup absent => exact absent never.1
  | behind closed => exact never.2 _ closed

/-- What the decoding of a row answers, however it ends. -/
theorem decodedFromWdb_decodeFromWdb (provider pointPlacename : Bytes) :
    DecodedFromWdb provider pointPlacename (decodeFromWdb F provider pointPlacename) where
  throws := by
    constructor
    · rintro ⟨exception, throws⟩
      rcases decodeFromWdb_cases F provider pointPlacename with
        ⟨placename, -, decoded⟩ | ⟨never, -⟩
      · rw [decoded] at throws
        cases throws
      · exact never
    · intro never
      rcases decodeFromWdb_cases F provider pointPlacename with
        ⟨placename, isPlacename, -⟩ | ⟨-, throws⟩
      · exact absurd never (not_neverClosed isPlacename)
      · exact throws
  item := by
    intro item decodedItem
    rcases decodeFromWdb_cases F provider pointPlacename with
      ⟨placename, isPlacename, decoded⟩ | ⟨-, exception, throws⟩
    · rw [decoded] at decodedItem
      cases decodedItem
      exact ⟨rfl, isPlacename⟩
    · rw [throws] at decodedItem
      cases decodedItem

end ProviderItem

/-! ## Items of a list -/

namespace ProviderList

variable (F) in
/-- `ProviderList::findProvider` for a provider and a place text of the database: the position of
the item, or the end position, and the reported name. -/
def findProviderAt (providers : ProviderList) (provider pointPlacename : Bytes) :
    Except RowException (ℕ × Bytes) := do
  let item ← ProviderItem.decodeFromWdb F provider pointPlacename
  let itFound := providers.findIdx fun it => decide (it.provider = item.provider) &&
    (item.placename.isEmpty || decide (it.placename = item.placename))
  return (itFound, (providers[itFound]?.getD item).providerWithPlacename)

/-- The rows are decoded with this item. -/
theorem findProviderFromWdb_eq (providers : ProviderList) (provider pointPlacename : Bytes) :
    providers.findProviderFromWdb F provider pointPlacename =
      (providers.findProviderAt F provider pointPlacename).map fun found =>
        (decide (found.1 < providers.length), found.2) := by
  rw [findProviderFromWdb, findProviderAt]
  cases ProviderItem.decodeFromWdb F provider pointPlacename with
  | error exception => rfl
  | ok item =>
      simp only [bind, Except.bind, pure, Except.pure, Except.map]
      rw [List.find?_eq_getElem?_findIdx]
      cases found : providers[providers.findIdx fun it => decide (it.provider = item.provider) &&
          (item.placename.isEmpty || decide (it.placename = item.placename))]? with
      | none =>
          have atEnd := List.getElem?_eq_none_iff.mp found
          rw [decide_eq_false (not_lt_of_ge atEnd)]
          rfl
      | some it =>
          have before := (List.getElem?_eq_some_iff.mp found).1
          rw [decide_eq_true before]
          rfl

/-! ## The documented item -/

/-- An item is for a provider of the database and a place, or for any place if there is none. -/
def isFor (provider placename : Bytes) (it : ProviderItem) : Bool :=
  decide (it.provider = provider) && (placename.isEmpty || decide (it.placename = placename))

/-- An item is for a provider of the database and has no place name. -/
def isUnset (provider : Bytes) (it : ProviderItem) : Bool :=
  decide (it.provider = provider) && it.placename.isEmpty

/-- The position of the first item for the provider and the place, else of the first one for the
provider without a place name, else the end position. -/
def documentedPosition (providers : ProviderList) (provider placename : Bytes) : ℕ :=
  (providers.findIdx? (isFor provider placename)).getD (providers.findIdx (isUnset provider))

/-- The documented item is found, and its name is reported, or that of the row. -/
structure FoundAsDocumented (providers : ProviderList) (provider placename : Bytes)
    (found : ℕ × Bytes) : Prop where
  position : found.1 = providers.documentedPosition provider placename
  hit : ∀ it, providers[found.1]? = some it → found.2 = it.providerWithPlacename
  miss : providers.length ≤ found.1 →
    found.2 = (⟨provider, placename⟩ : ProviderItem).providerWithPlacename

variable (F) in
/-- A row is decoded, and its item is found as it is documented. -/
structure MatchedAsDocumented (providers : ProviderList) (provider pointPlacename : Bytes) :
    Prop where
  decoded : ProviderItem.DecodedFromWdb provider pointPlacename
    (ProviderItem.decodeFromWdb F provider pointPlacename)
  throws : NeverClosed pointPlacename →
    ∃ exception, providers.findProviderAt F provider pointPlacename = .error exception
  found : ∀ placename, RowPlacename pointPlacename placename →
    ∃ found, providers.findProviderAt F provider pointPlacename = .ok found ∧
      FoundAsDocumented providers (trim provider) placename found

/-- There is no place name in the row, or there is an item for the provider and the place, or there
is none for the provider without a place name. -/
def NeedsNoFallback (providers : ProviderList) (provider pointPlacename : Bytes) : Prop :=
  ∀ placename, RowPlacename pointPlacename placename → placename = [] ∨
    (∃ it ∈ providers, it.provider = trim provider ∧ it.placename = placename) ∨
      ∀ it ∈ providers, it.provider = trim provider → it.placename ≠ []

omit [RowReading F] in
/-- The loop finds the documented item exactly when it needs no item without a place name. -/
theorem findIdx_isFor_iff (providers : ProviderList) (provider placename : Bytes) :
    providers.findIdx (isFor provider placename) =
        providers.documentedPosition provider placename ↔
      placename = [] ∨ (∃ it ∈ providers, it.provider = provider ∧ it.placename = placename) ∨
        ∀ it ∈ providers, it.provider = provider → it.placename ≠ [] := by
  rw [documentedPosition]
  cases found : providers.findIdx? (isFor provider placename) with
  | some i =>
      have position := List.findIdx?_eq_some_iff_findIdx_eq.mp found
      obtain ⟨it, member, isFor⟩ := List.findIdx_lt_length.mp (position.2 ▸ position.1)
      rw [ProviderList.isFor, Bool.and_eq_true, Bool.or_eq_true, decide_eq_true_iff,
        decide_eq_true_iff, List.isEmpty_iff] at isFor
      apply iff_of_true position.2
      rcases isFor.2 with noPlace | samePlace
      · exact Or.inl noPlace
      · exact Or.inr (Or.inl ⟨it, member, isFor.1, samePlace⟩)
  | none =>
      have notFound := List.findIdx?_eq_none_iff.mp found
      have atEnd := List.findIdx?_eq_none_iff_findIdx_eq.mp found
      rw [atEnd, Option.getD_none, eq_comm, List.findIdx_eq_length]
      constructor
      · intro noUnset
        refine Or.inr (Or.inr fun it member isProvider noPlace => ?_)
        have isNot := noUnset it member
        rw [isUnset, decide_eq_true isProvider, noPlace] at isNot
        cases isNot
      · intro noFallback it member
        have isNot := notFound it member
        rw [isFor] at isNot
        rw [isUnset]
        by_cases isProvider : it.provider = provider
        · rw [decide_eq_true isProvider, Bool.true_and] at isNot ⊢
          rw [Bool.or_eq_false_iff, List.isEmpty_eq_false_iff, decide_eq_false_iff_not] at isNot
          rw [List.isEmpty_eq_false_iff]
          rcases noFallback with noPlace | ⟨other, isIn, same, samePlace⟩ | noUnset
          · exact absurd noPlace isNot.1
          · have otherNot := notFound other isIn
            rw [isFor, decide_eq_true same, decide_eq_true samePlace, Bool.or_true] at otherNot
            cases otherNot
          · exact noUnset it member isProvider
        · rw [decide_eq_false isProvider, Bool.false_and]

/-- The item of a row is found as it is documented exactly when no item without a place name is
needed. -/
theorem matchedAsDocumented_iff (providers : ProviderList) (provider pointPlacename : Bytes) :
    MatchedAsDocumented F providers provider pointPlacename ↔
      NeedsNoFallback providers provider pointPlacename := by
  have foundOf {placename : Bytes} (isPlacename : RowPlacename pointPlacename placename) :
      providers.findProviderAt F provider pointPlacename =
        .ok (providers.findIdx (isFor (trim provider) placename),
          (providers[providers.findIdx (isFor (trim provider) placename)]?.getD
            ⟨trim provider, placename⟩).providerWithPlacename) := by
    rw [findProviderAt, ProviderItem.decodeFromWdb_of_rowPlacename F provider isPlacename]
    rfl
  constructor
  · intro matched placename isPlacename
    obtain ⟨found, isFound, documented⟩ := matched.found placename isPlacename
    rw [foundOf isPlacename] at isFound
    cases isFound
    exact (findIdx_isFor_iff providers (trim provider) placename).mp documented.position
  · intro needsNone
    constructor
    · exact ProviderItem.decodedFromWdb_decodeFromWdb F provider pointPlacename
    · intro never
      rcases ProviderItem.decodeFromWdb_cases F provider pointPlacename with
        ⟨placename, isPlacename, -⟩ | ⟨-, exception, throws⟩
      · exact absurd never (ProviderItem.not_neverClosed isPlacename)
      · refine ⟨exception, ?_⟩
        rw [findProviderAt, throws]
        rfl
    · intro placename isPlacename
      refine ⟨_, foundOf isPlacename, ?_, ?_, ?_⟩
      · exact (findIdx_isFor_iff providers (trim provider) placename).mpr
          (needsNone placename isPlacename)
      · intro it isHit
        dsimp only at isHit ⊢
        rw [isHit, Option.getD_some]
      · intro atEnd
        dsimp only at atEnd ⊢
        rw [List.getElem?_eq_none atEnd, Option.getD_none]

/-- An item without a place name is not found for a row with one. -/
theorem not_matched_unsetPlacename :
    findProviderAt ℚ [⟨Bytes.str "met.no", []⟩] (Bytes.str "met.no")
        (Bytes.str "nearest POINT(10 60) oslo") = .ok (1, Bytes.str "met.no [oslo]") ∧
      ¬MatchedAsDocumented ℚ [⟨Bytes.str "met.no", []⟩] (Bytes.str "met.no")
        (Bytes.str "nearest POINT(10 60) oslo") := by
  have isFound : findProviderAt ℚ [⟨Bytes.str "met.no", []⟩] (Bytes.str "met.no")
      (Bytes.str "nearest POINT(10 60) oslo") = .ok (1, Bytes.str "met.no [oslo]") := by
    decide +kernel
  refine ⟨isFound, fun matched => ?_⟩
  have closed : ClosedGroup (Bytes.str "nearest POINT" ++ Bytes.chr '(' ::
      Bytes.str "10 60) oslo") (Bytes.str " oslo") :=
    (closedGroup_iff (by decide)).mpr (by decide +kernel)
  obtain ⟨found, isOk, documented⟩ := matched.found _ (.behind closed)
  rw [isFound] at isOk
  cases isOk
  exact absurd documented.position (by decide +kernel)

end ProviderList

end Wdb2ts
