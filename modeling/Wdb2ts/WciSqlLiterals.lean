import Wdb2ts.WciQueryHistory
import Wdb2ts.Lib.SqlText

/-!
# The string literals of a generated query

The decoders put the values of a query between quotes.  Values that hold no quotes of their
own are the texts of the string literals of the generated SQL.
-/

namespace Wdb2ts

open SqlText

/-- The quote of SQL. -/
def sqlQuote : Byte := Bytes.chr '\''

/-! ## The bytes of split and trimmed texts -/

theorem mem_of_mem_splitLoop {sep stringProtector byte : Byte} {text elem part : Bytes}
    {previous : Byte} {inString : Bool}
    (isPart : part ∈ miutil.splitLoop sep stringProtector text previous inString elem)
    (member : byte ∈ part) : byte ∈ elem ∨ byte ∈ text := by
  induction text generalizing previous inString elem with
  | nil =>
      rw [miutil.splitLoop, List.mem_singleton] at isPart
      rw [isPart] at member
      exact Or.inl (Bytes.mem_of_mem_trimBy member)
  | cons next rest ih =>
      have extended : ∀ {other : Bytes}, byte ∈ other ++ [next] ∨ byte ∈ rest →
          byte ∈ other ∨ byte ∈ next :: rest := by
        intro other found
        simp only [List.mem_append, List.mem_cons, List.not_mem_nil, or_false] at found ⊢
        rcases found with (inOther | isNext) | inRest
        · exact Or.inl inOther
        · exact Or.inr (Or.inl isNext)
        · exact Or.inr (Or.inr inRest)
      simp only [miutil.splitLoop] at isPart
      split at isPart
      · exact extended (ih isPart)
      · split at isPart
        · exact extended (ih isPart)
        · split at isPart
          · exact extended (ih isPart)
          · rcases List.mem_cons.mp isPart with isFirst | isLater
            · rw [isFirst] at member
              exact Or.inl (Bytes.mem_of_mem_trimBy member)
            · rcases ih isLater with inNothing | inRest
              · cases inNothing
              · exact Or.inr (List.mem_cons_of_mem next inRest)

/-- The trimmed elements of a text without quotes have none. -/
theorem noQuote_trimmedElements {text elem : Bytes} (noQuote : sqlQuote ∉ text)
    (isElem : elem ∈ trimmedElements text) : sqlQuote ∉ elem := by
  rcases List.mem_map.mp isElem with ⟨part, isPart, rfl⟩
  intro member
  rcases mem_of_mem_splitLoop isPart (Bytes.mem_of_mem_trimBy member) with inNothing | inText
  · cases inNothing
  · exact noQuote inText

theorem noQuote_elements {text elem : Bytes} (noQuote : sqlQuote ∉ text)
    (isElem : elem ∈ elements text) : sqlQuote ∉ elem :=
  noQuote_trimmedElements noQuote (List.mem_of_mem_filter isElem)

/-! ## Select parts -/

theorem reads_quoted {text : Bytes} (noQuote : sqlQuote ∉ text) :
    Reads sqlQuote (quoted text) [text] := by
  have reads : Reads sqlQuote (literal sqlQuote text) [text] := reads_literal text
  rwa [literal_of_not_mem noQuote] at reads

theorem head_rest (elems : List Bytes) :
    (elems.flatMap fun elem => Bytes.str ", " ++ quoted elem).head? ≠ some sqlQuote := by
  cases elems with
  | nil => exact Option.some_ne_none sqlQuote ∘ Eq.symm
  | cons first rest =>
      change some (Bytes.chr ',') ≠ some sqlQuote
      decide

theorem reads_rest {elems : List Bytes} (noQuote : ∀ elem ∈ elems, sqlQuote ∉ elem) :
    Reads sqlQuote (elems.flatMap fun elem => Bytes.str ", " ++ quoted elem) elems := by
  induction elems with
  | nil => exact reads_of_not_mem List.not_mem_nil
  | cons first rest ih =>
      have readsFirst := (reads_quoted (noQuote first List.mem_cons_self)).prepend
        (show sqlQuote ∉ Bytes.str ", " by decide)
      have readsRest := ih fun elem member => noQuote elem (List.mem_cons_of_mem first member)
      rw [List.flatMap_cons]
      exact readsFirst.append readsRest (head_rest rest)

/-- The literals of an array are its elements. -/
theorem reads_sqlArray {opening closing : Bytes} {elems : List Bytes}
    (noQuoteOpening : sqlQuote ∉ opening) (noQuoteClosing : sqlQuote ∉ closing)
    (noQuote : ∀ elem ∈ elems, sqlQuote ∉ elem) :
    Reads sqlQuote (sqlArray opening closing elems) elems := by
  cases elems with
  | nil =>
      have noQuoteNull : sqlQuote ∉ Bytes.str "NULL" := by decide
      exact reads_of_not_mem noQuoteNull
  | cons first rest =>
      have readsFirst := (reads_quoted (noQuote first List.mem_cons_self)).prepend noQuoteOpening
      have readsRest := reads_rest fun elem member =>
        noQuote elem (List.mem_cons_of_mem first member)
      have both := readsFirst.append readsRest (head_rest rest)
      exact both.append_code noQuoteClosing

/-! ## Level specifications -/

/-- What holds of the values of an accepted level specification.  The values of a complete
specification are its elements one by one. -/
structure AcceptedLevels (elems : List Bytes) (values : LevelValues) : Prop where
  isFrom : values.levelfrom ∈ elems
  isTo : values.levelto ∈ elems
  isDomain : values.leveldomain ∈ elems
  isInd : values.ind ∈ elems ∨ values.ind = Bytes.str "exact"
  fromDigits : UrlParamLevelSpec.validLevel values.levelfrom = true
  toDigits : UrlParamLevelSpec.validLevel values.levelto = true
  complete : ∀ levelfrom levelto leveldomain ind, elems = [levelfrom, levelto, leveldomain, ind] →
    UrlParamLevelSpec.validLevel levelfrom = true → UrlParamLevelSpec.validLevel levelto = true →
    values = ⟨levelfrom, levelto, leveldomain, if ind.isEmpty then Bytes.str "exact" else ind⟩

/-- The select parts of a level specification with the given trimmed elements, and their
literals.  Under protocol 1 the levels stand outside of the literals. -/
inductive LevelSelect (protocol : ℤ) (elems : List Bytes) : Bytes → List Bytes → Prop where
  | absent (allEmpty : ∀ elem ∈ elems, elem = []) :
      LevelSelect protocol elems (Bytes.str "NULL") []
  | record {values : LevelValues} (old : protocol < 2) (accepted : AcceptedLevels elems values) :
      LevelSelect protocol elems (UrlParamLevelSpec.recordOf values)
        [values.leveldomain, values.ind]
  | oneLevel {values : LevelValues} (new : 2 ≤ protocol)
      (accepted : AcceptedLevels elems values) :
      LevelSelect protocol elems (quoted (UrlParamLevelSpec.oneLevel values))
        [UrlParamLevelSpec.oneLevel values]
  | interval {values : LevelValues} (new : 2 ≤ protocol)
      (accepted : AcceptedLevels elems values) :
      LevelSelect protocol elems (quoted (UrlParamLevelSpec.levelInterval values))
        [UrlParamLevelSpec.levelInterval values]

theorem getD_mem_or_eq {elems : List Bytes} (index : ℕ) (missing : Bytes) :
    (elems[index]?).getD missing ∈ elems ∨ (elems[index]?).getD missing = missing := by
  cases found : elems[index]? with
  | none => exact Or.inr rfl
  | some elem => exact Or.inl (List.mem_of_getElem? found)

theorem getD_mem {elems : List Bytes} {index : ℕ} (inRange : index < elems.length)
    (missing : Bytes) : (elems[index]?).getD missing ∈ elems := by
  rw [List.getElem?_eq_getElem inRange]
  exact List.getElem_mem inRange

/-- Filling in takes every value from the elements. -/
theorem mem_fillIn {elems : List Bytes} {values : LevelValues}
    (isFrom : values.levelfrom ∈ elems) (isTo : values.levelto ∈ elems)
    (isDomain : values.leveldomain ∈ elems ∨ values.leveldomain = [])
    (isInd : values.ind ∈ elems ∨ values.ind = Bytes.str "exact")
    (third : elems.length = 3 → values.leveldomain ∈ elems)
    (someValid : ¬((!UrlParamLevelSpec.validLevel values.levelfrom &&
      !UrlParamLevelSpec.validLevel values.levelto) = true))
    (someDomain : ¬((!UrlParamLevelSpec.validLeveldomain
      (UrlParamLevelSpec.fillIn values elems.length).leveldomain) = true)) :
    let filled := UrlParamLevelSpec.fillIn values elems.length
    filled.levelfrom ∈ elems ∧ filled.levelto ∈ elems ∧ filled.leveldomain ∈ elems ∧
      (filled.ind ∈ elems ∨ filled.ind = Bytes.str "exact") ∧
      UrlParamLevelSpec.validLevel filled.levelfrom = true ∧
      UrlParamLevelSpec.validLevel filled.levelto = true := by
  have domainOf : ∀ domain : Bytes, (domain ∈ elems ∨ domain = []) →
      ¬((!UrlParamLevelSpec.validLeveldomain domain) = true) → domain ∈ elems := by
    intro domain isDomain notEmpty
    rcases isDomain with isElem | rfl
    · exact isElem
    · exact absurd rfl notEmpty
  simp only [UrlParamLevelSpec.fillIn] at someDomain ⊢
  by_cases fromValid : UrlParamLevelSpec.validLevel values.levelfrom = true
  · by_cases toValid : UrlParamLevelSpec.validLevel values.levelto = true
    · simp only [fromValid, toValid, Bool.not_true, Bool.false_eq_true, if_false]
        at someDomain ⊢
      exact ⟨isFrom, isTo, domainOf _ isDomain someDomain, isInd, trivial, trivial⟩
    · have invalid := Bool.eq_false_iff.mpr toValid
      simp only [fromValid, invalid, Bool.not_true, Bool.not_false, Bool.false_eq_true,
        if_false, if_true] at someDomain ⊢
      refine ⟨isFrom, isFrom, isTo, ?_, trivial, trivial⟩
      by_cases isThird : elems.length = 3
      · simp only [isThird, if_true]
        exact Or.inl (third isThird)
      · simp only [isThird, if_false]
        exact isInd
  · have invalid := Bool.eq_false_iff.mpr fromValid
    have toValid : UrlParamLevelSpec.validLevel values.levelto = true := by
      simpa [invalid] using someValid
    simp only [invalid, Bool.not_false, if_true] at someDomain ⊢
    exact ⟨isTo, isTo, domainOf _ isDomain someDomain, isInd, toValid, toValid⟩

/-- The values of an accepted level specification are its elements. -/
theorem acceptedLevels_of_decodeValues {protocol : ℤ} {text : Bytes} {values : LevelValues}
    (decoded : UrlParamLevelSpec.decodeValues protocol text = .ok (some values)) :
    AcceptedLevels (trimmedElements text) values := by
  simp only [UrlParamLevelSpec.decodeValues] at decoded
  generalize trimmedElements text = elems at decoded ⊢
  split at decoded
  · cases decoded
  · split at decoded
    · cases decoded
    · rename_i _ enough
      split at decoded
      · cases decoded
      · split at decoded
        · cases decoded
        · split at decoded
          · cases decoded
          · rename_i someValid
            split at decoded
            · cases decoded
            · rename_i someDomain
              split at decoded
              · cases decoded
              · obtain ⟨isFrom, isTo, isDomain, isInd, fromDigits, toDigits⟩ := mem_fillIn
                  (getD_mem (by omega) []) (getD_mem (by omega) []) (getD_mem_or_eq 2 [])
                  (getD_mem_or_eq 3 (Bytes.str "exact"))
                  (fun isThird => getD_mem (by omega) []) someValid someDomain
                cases decoded
                refine ⟨isFrom, isTo, isDomain, ?_, fromDigits, toDigits, ?_⟩
                · simp only
                  split
                  · exact Or.inr rfl
                  · exact isInd
                · rintro levelfrom levelto leveldomain ind rfl fromValid toValid
                  simp [UrlParamLevelSpec.fillIn, fromValid, toValid]

/-- A level specification is left out when its elements are empty. -/
theorem allEmpty_of_decodeValues {protocol : ℤ} {text : Bytes}
    (decoded : UrlParamLevelSpec.decodeValues protocol text = .ok none) :
    ∀ elem ∈ trimmedElements text, elem = [] := by
  simp only [UrlParamLevelSpec.decodeValues] at decoded
  generalize trimmedElements text = elems at decoded ⊢
  split at decoded
  · rename_i noElems
    rw [List.length_eq_zero_iff] at noElems
    simp [noElems]
  · split at decoded
    · cases decoded
    · split at decoded
      · cases decoded
      · rename_i notMany
        split at decoded
        · rename_i allEmpty
          simp only [Bool.and_eq_true, List.isEmpty_iff] at allEmpty
          obtain ⟨⟨⟨first, second⟩, third⟩, fourth⟩ := allEmpty
          match elems, notMany with
          | [], _ => simp
          | [_], _ => simp_all
          | [_, _], _ => simp_all [Bytes.str]
          | [_, _, _], _ => simp_all [Bytes.str]
          | [_, _, _, _], _ => simp_all
          | _ :: _ :: _ :: _ :: _ :: _, notMany => simp at notMany
        · split at decoded
          · cases decoded
          · split at decoded
            · cases decoded
            · split at decoded
              · cases decoded
              · cases decoded

/-- The select part of an accepted level specification. -/
theorem levelSelect_decode {text : Bytes} {param : UrlParamLevelSpec}
    (accepted : (param.decode text).1 = none) :
    ∃ levels, LevelSelect param.protocol (trimmedElements text)
      (param.decode text).2.selectPart_ levels := by
  have older : param.protocol < 2 → (param.decodeProtocol1 text).1 = none →
      ∃ levels, LevelSelect param.protocol (trimmedElements text)
        (param.decodeProtocol1 text).2.selectPart_ levels := by
    intro old accepted
    simp only [UrlParamLevelSpec.decodeProtocol1] at accepted ⊢
    cases decoded : UrlParamLevelSpec.decodeValues param.protocol text with
    | error what => simp [decoded] at accepted
    | ok outcome =>
        cases outcome with
        | none => exact ⟨[], .absent (allEmpty_of_decodeValues decoded)⟩
        | some values =>
            have levels := acceptedLevels_of_decodeValues decoded
            exact ⟨_, .record old levels⟩
  have newer : 2 ≤ param.protocol → (param.decodeProtocol2 text).1 = none →
      ∃ levels, LevelSelect param.protocol (trimmedElements text)
        (param.decodeProtocol2 text).2.selectPart_ levels := by
    intro new accepted
    simp only [UrlParamLevelSpec.decodeProtocol2] at accepted ⊢
    cases decoded : UrlParamLevelSpec.decodeValues param.protocol text with
    | error what => simp [decoded] at accepted
    | ok outcome =>
        cases outcome with
        | none => exact ⟨[], .absent (allEmpty_of_decodeValues decoded)⟩
        | some values =>
            have levels := acceptedLevels_of_decodeValues decoded
            simp only [decoded] at accepted ⊢
            split
            · rename_i same
              rw [if_pos same] at accepted
              split
              · exact ⟨_, .oneLevel new levels⟩
              · rename_i meaningless
                rw [if_neg meaningless] at accepted
                cases accepted
            · exact ⟨_, .interval new levels⟩
  simp only [UrlParamLevelSpec.decode] at accepted ⊢
  by_cases isOne : param.protocol = 1
  · rw [if_pos isOne] at accepted ⊢
    exact older (isOne ▸ by decide) accepted
  · rw [if_neg isOne] at accepted ⊢
    by_cases isNew : 2 ≤ param.protocol
    · rw [if_pos isNew] at accepted ⊢
      exact newer isNew accepted
    · rw [if_neg isNew] at accepted ⊢
      exact older (not_le.mp isNew) accepted

/-- Code and a literal behind a piece. -/
theorem reads_append_quoted {piece code text : Bytes} {values : List Bytes}
    (reads : Reads sqlQuote piece values) (noQuoteCode : sqlQuote ∉ code) (some : code ≠ [])
    (noQuote : sqlQuote ∉ text) :
    Reads sqlQuote (piece ++ code ++ quoted text) (values ++ [text]) := by
  have apart : (code ++ quoted text).head? ≠ Option.some sqlQuote := by
    cases code with
    | nil => exact absurd rfl some
    | cons first rest =>
        intro isQuote
        exact noQuoteCode (Option.some.inj isQuote ▸ List.mem_cons_self)
  rw [List.append_assoc]
  exact reads.append ((reads_quoted noQuote).prepend noQuoteCode) apart

theorem noQuote_append {first second : Bytes} (noQuoteFirst : sqlQuote ∉ first)
    (noQuoteSecond : sqlQuote ∉ second) : sqlQuote ∉ first ++ second := by
  intro member
  rcases List.mem_append.mp member with inFirst | inSecond
  · exact noQuoteFirst inFirst
  · exact noQuoteSecond inSecond

/-- The literals of the select part of a level specification without quotes. -/
theorem LevelSelect.reads {protocol : ℤ} {elems levels : List Bytes} {selectPart : Bytes}
    (levelSelect : LevelSelect protocol elems selectPart levels)
    (noQuote : ∀ elem ∈ elems, sqlQuote ∉ elem) : Reads sqlQuote selectPart levels := by
  have noQuoteInd : ∀ {ind : Bytes}, (ind ∈ elems ∨ ind = Bytes.str "exact") →
      sqlQuote ∉ ind := by
    intro ind isInd
    rcases isInd with isElem | rfl
    · exact noQuote ind isElem
    · decide
  have blank : sqlQuote ∉ Bytes.str " " := by decide
  cases levelSelect with
  | absent allEmpty =>
      have noQuoteNull : sqlQuote ∉ Bytes.str "NULL" := by decide
      exact reads_of_not_mem noQuoteNull
  | record old accepted =>
      have comma : sqlQuote ∉ Bytes.str ", " := by decide
      have inFront := noQuote_append (noQuote_append (noQuote_append
        (noQuote_append (show sqlQuote ∉ Bytes.str "(" by decide) (noQuote _ accepted.isFrom)) comma)
        (noQuote _ accepted.isTo)) comma
      have withDomain := (reads_quoted (noQuote _ accepted.isDomain)).prepend inFront
      have withInd := reads_append_quoted withDomain comma (by decide) (noQuoteInd accepted.isInd)
      exact withInd.append_code (by decide)
  | oneLevel new accepted =>
      exact reads_quoted (noQuote_append (noQuote_append (noQuote_append
        (noQuote_append (noQuoteInd accepted.isInd) blank) (noQuote _ accepted.isFrom)) blank)
        (noQuote _ accepted.isDomain))
  | interval new accepted =>
      exact reads_quoted (noQuote_append (noQuote_append (noQuote_append (noQuote_append
        (noQuote_append (by decide) (noQuote _ accepted.isFrom)) (by decide))
        (noQuote _ accepted.isTo)) blank) (noQuote _ accepted.isDomain))

/-! ## Times, versions and polygons -/

/-- A select part whose literals are closed. -/
def Closed (selectPart : Bytes) : Prop := ∃ values, Reads sqlQuote selectPart values

theorem noQuote_of_validDate {text : Bytes}
    (valid : UrlParamTimeSpec.validDate text = true) : sqlQuote ∉ text := by
  cases text with
  | nil => exact List.not_mem_nil
  | cons first rest =>
      simp only [UrlParamTimeSpec.validDate, Bool.or_eq_true, Bool.and_eq_true] at valid
      rcases valid with isName | ⟨allowed, _⟩
      · have noQuoteNames : ∀ name ∈ UrlParamTimeSpec.dateNames, sqlQuote ∉ name := by decide
        exact noQuoteNames _ (List.contains_iff_mem.mp isName)
      · intro member
        have isAllowed := List.all_eq_true.mp allowed sqlQuote member
        revert isAllowed
        decide

theorem noQuote_of_validIndCode {protocol : ℤ} {code : Bytes}
    (valid : UrlParamTimeSpec.validIndCode protocol code = true) : sqlQuote ∉ code := by
  simp only [UrlParamTimeSpec.validIndCode, Bool.or_eq_true, Bool.and_eq_true,
    decide_eq_true_eq] at valid
  rcases valid with (((rfl | ⟨rfl, _⟩) | rfl) | ⟨rfl, _⟩) | ⟨_, (rfl | rfl) | rfl⟩
  all_goals decide

/-- The values of an accepted time specification hold no quotes. -/
theorem noQuote_timeValues {protocol : ℤ} {text : Bytes}
    {values : UrlParamTimeSpec.TimeValues}
    (decoded : UrlParamTimeSpec.decodeValues protocol text = .ok (some values)) :
    sqlQuote ∉ values.fromText ∧ sqlQuote ∉ values.toText ∧ sqlQuote ∉ values.ind := by
  simp only [UrlParamTimeSpec.decodeValues] at decoded
  generalize (splitComma text).map (fun val => miutil.trimstr val miutil.blanks) = vals
    at decoded
  have filled : ∀ values : UrlParamTimeSpec.TimeValues,
      ¬((!UrlParamTimeSpec.validDate (UrlParamTimeSpec.fillIn values vals.length).fromText &&
        !UrlParamTimeSpec.validDate (UrlParamTimeSpec.fillIn values vals.length).toText) =
          true) →
      UrlParamTimeSpec.validDate (UrlParamTimeSpec.fillIn values vals.length).fromText = true ∧
        UrlParamTimeSpec.validDate (UrlParamTimeSpec.fillIn values vals.length).toText =
          true := by
    intro values someValid
    simp only [UrlParamTimeSpec.fillIn] at someValid ⊢
    cases fromValid : UrlParamTimeSpec.validDate values.fromText with
    | false =>
        simp only [fromValid, Bool.not_false, if_true] at someValid ⊢
        simpa using someValid
    | true =>
        cases toValid : UrlParamTimeSpec.validDate values.toText with
        | false => simp [fromValid]
        | true => simp [fromValid, toValid]
  split at decoded
  · cases decoded
  · split at decoded
    · cases decoded
    · split at decoded
      · cases decoded
      · split at decoded
        · cases decoded
        · split at decoded
          · cases decoded
          · split at decoded
            · cases decoded
            · rename_i someValid
              have dates := filled _ someValid
              split at decoded
              · cases decoded
              · rename_i someCode
                cases decoded
                refine ⟨noQuote_of_validDate dates.1, noQuote_of_validDate dates.2, ?_⟩
                simp only [Bool.and_eq_true, Bool.not_eq_true', not_and,
                  Bool.not_eq_false] at someCode
                simp only
                split
                · decide
                · rename_i notEmpty
                  apply noQuote_of_validIndCode
                  by_contra invalid
                  exact notEmpty (someCode (Bool.eq_false_iff.mpr invalid))

theorem closed_timeSelect {isProtocol1 : Bool} {values : UrlParamTimeSpec.TimeValues}
    {param : UrlParamTimeSpec} (noQuoteFrom : sqlQuote ∉ values.fromText)
    (noQuoteTo : sqlQuote ∉ values.toText) (noQuoteInd : sqlQuote ∉ values.ind)
    (accepted : (UrlParamTimeSpec.select isProtocol1 values param).1 = none) :
    Closed (UrlParamTimeSpec.select isProtocol1 values param).2.selectPart_ := by
  have blank : sqlQuote ∉ Bytes.str " " := by decide
  have comma : sqlQuote ∉ Bytes.str ", " := by decide
  simp only [UrlParamTimeSpec.select] at accepted ⊢
  split
  · have withFrom := (reads_quoted noQuoteFrom).prepend
      (show sqlQuote ∉ Bytes.str "(" by decide)
    have withTo := reads_append_quoted withFrom comma (by decide) noQuoteTo
    have withInd := reads_append_quoted withTo comma (by decide) noQuoteInd
    exact ⟨_, withInd.append_code (by decide)⟩
  · rename_i isNew
    rw [if_neg isNew] at accepted
    split
    · rename_i same
      rw [if_pos same] at accepted
      split
      · exact ⟨_, reads_quoted
          (noQuote_append (noQuote_append noQuoteInd blank) noQuoteFrom)⟩
      · rename_i meaningless
        rw [if_neg meaningless] at accepted
        cases accepted
    · have noQuoteKind : sqlQuote ∉ (if values.ind = Bytes.str "inside" ∨
          values.ind = Bytes.str "contains" then values.ind else Bytes.str "inside") := by
        split
        · exact noQuoteInd
        · decide
      exact ⟨_, reads_quoted (noQuote_append (noQuote_append (noQuote_append
        (noQuote_append noQuoteKind blank) noQuoteFrom) (by decide)) noQuoteTo)⟩

section Decoders

variable {F : Type} [TextFunctions F]

theorem closed_null : Closed (Bytes.str "NULL") :=
  ⟨[], reads_of_not_mem (show sqlQuote ∉ Bytes.str "NULL" by decide)⟩

theorem closed_decodeTimes {isProtocol1 : Bool} {text : Bytes} {param : UrlParamTimeSpec}
    (accepted : (UrlParamTimeSpec.decodeTimes F isProtocol1 text param).1 = none) :
    Closed (UrlParamTimeSpec.decodeTimes F isProtocol1 text param).2.selectPart_ := by
  simp only [UrlParamTimeSpec.decodeTimes] at accepted ⊢
  split
  · rename_i decoded
    simp [decoded] at accepted
  · exact closed_null
  · rename_i values decoded
    simp only [decoded, UrlParamTimeSpec.storeTimes] at accepted ⊢
    have noQuotes := noQuote_timeValues decoded
    split
    · rename_i what isError
      simp [isError] at accepted
    · rename_i fromTime isFrom
      simp only [isFrom] at accepted ⊢
      split
      · rename_i what isError
        simp [isError] at accepted
      · rename_i toTime isTo
        simp only [isTo] at accepted
        exact closed_timeSelect noQuotes.1 noQuotes.2.1 noQuotes.2.2 accepted

/-- The select part of an accepted time specification is closed, whatever its text. -/
theorem closed_timeSpec {text : Bytes} {param : UrlParamTimeSpec}
    (accepted : (param.decode F text).1 = none) :
    Closed (param.decode F text).2.selectPart_ := by
  have protocols : ∀ {isProtocol1 : Bool} {param : UrlParamTimeSpec},
      (param.decodeProtocol F isProtocol1 text).1 = none →
      Closed (param.decodeProtocol F isProtocol1 text).2.selectPart_ := by
    intro isProtocol1 param accepted
    simp only [UrlParamTimeSpec.decodeProtocol] at accepted ⊢
    split
    · rename_i notFound
      simp only [notFound] at accepted
      exact closed_decodeTimes accepted
    · rename_i iSameTimeSpec isFound
      simp only [isFound] at accepted
      split
      · rename_i noStop
        simp [noStop] at accepted
      · split
        · exact closed_null
        · exact closed_null
  simp only [UrlParamTimeSpec.decode] at accepted ⊢
  split
  · rename_i isOne
    rw [if_pos isOne] at accepted
    exact protocols accepted
  · rename_i isOther
    rw [if_neg isOther] at accepted
    split
    · rename_i isNew
      rw [if_pos isNew] at accepted
      exact protocols accepted
    · rename_i isOld
      rw [if_neg isOld] at accepted
      exact protocols accepted

theorem noQuote_flatMap {β : Type} (print : β → Bytes) {elems : List β}
    (noQuote : ∀ elem ∈ elems, sqlQuote ∉ print elem) : sqlQuote ∉ elems.flatMap print := by
  intro member
  rcases List.mem_flatMap.mp member with ⟨elem, isElem, isIn⟩
  exact noQuote elem isElem isIn

theorem noQuote_arrayOf (numbers : List ℤ) : sqlQuote ∉ UrlParamInteger.arrayOf numbers := by
  cases numbers with
  | nil => decide
  | cons first rest =>
      have noQuoteRest : sqlQuote ∉ rest.flatMap fun number => Bytes.str "," ++ printInt number :=
        noQuote_flatMap _ fun number _ => noQuote_append (by decide) (noQuote_printInt number)
      exact noQuote_append (noQuote_append
        (noQuote_append (by decide) (noQuote_printInt first)) noQuoteRest) (by decide)

/-- The select part of an accepted version. -/
theorem noQuote_integer {text : Bytes} {param : UrlParamInteger}
    (accepted : (param.decode text).1 = none) :
    sqlQuote ∉ (param.decode text).2.selectPart_ := by
  simp only [UrlParamInteger.decode] at accepted ⊢
  split
  · rename_i isError
    rw [if_pos isError] at accepted
    cases accepted
  · rename_i scanned
    rw [if_neg scanned] at accepted
    split
    · exact noQuote_arrayOf _
    · rename_i single
      rw [if_neg single] at accepted
      split
      · exact noQuote_arrayOf []
      · exact noQuote_printInt _
      · rename_i noValue oneValue
        split at accepted
        · exact absurd ‹_› noValue
        · exact absurd ‹_› (oneValue _)
        · cases accepted

theorem noQuote_printPoint (point : LocationPoint) :
    sqlQuote ∉ UrlParamPolygon.printPoint F point :=
  noQuote_append (noQuote_append (TextFunctions.printCoordinate_noQuote _) (by decide))
    (TextFunctions.printCoordinate_noQuote _)

theorem noQuote_polygonText (points : List LocationPoint) :
    sqlQuote ∉ UrlParamPolygon.polygonText F points := by
  cases points with
  | nil => exact List.not_mem_nil
  | cons first rest =>
      have noQuoteRest : sqlQuote ∉ rest.flatMap fun point =>
          Bytes.str "," ++ UrlParamPolygon.printPoint F point :=
        noQuote_flatMap _ fun point _ => noQuote_append (by decide) (noQuote_printPoint point)
      exact noQuote_append (noQuote_append
        (noQuote_append (by decide) (noQuote_printPoint first)) noQuoteRest) (by decide)

theorem noQuote_polygon {text : Bytes} {param : UrlParamPolygon}
    (noQuote : sqlQuote ∉ param.selectPart_) :
    sqlQuote ∉ (param.decode F text).2.selectPart_ := by
  simp only [UrlParamPolygon.decode]
  split
  · exact noQuote
  · exact noQuote_polygonText _

end Decoders

end Wdb2ts
