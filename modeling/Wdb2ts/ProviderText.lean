import Wdb2ts.ProviderList

/-!
# Provider items as text

The printed form of a provider item is read by two decoders of items, and lists of place names are
read by a third one.  In a list a place name with a comma stands in single quotes.
-/

namespace Wdb2ts

/-- No white space at the beginning or the end. -/
def Trimmed (text : Bytes) : Prop := Bytes.TrimmedBy isSpace text

theorem Trimmed.trimmedBy_blanks {text : Bytes} (trimmed : Trimmed text) :
    Bytes.TrimmedBy (fun byte => miutil.blanks.contains byte) text := by
  apply trimmed.mono
  intro byte blank
  rw [List.contains_iff_mem] at blank
  simp only [miutil.blanks, List.mem_cons, List.not_mem_nil, or_false] at blank
  rcases blank with same | same | same | same <;> subst same <;> decide

namespace miutil

theorem trimstr_append {text : Bytes} (trimmed : Trimmed text) (before after : Bytes)
    (blanksBefore : ∀ byte ∈ before, blanks.contains byte = true)
    (blanksAfter : ∀ byte ∈ after, blanks.contains byte = true) :
    trimstr (before ++ text ++ after) blanks = text :=
  trimmed.trimmedBy_blanks.trimBy_append before after blanksBefore blanksAfter

theorem trimstr_of_trimmed {text : Bytes} (trimmed : Trimmed text) :
    trimstr text blanks = text :=
  trimmed.trimmedBy_blanks.trimBy_eq

variable {sep stringProtector : Byte}

/-- Outside of a protected part the bytes of an element are collected. -/
theorem splitLoop_plain {text : Bytes} (plain : ∀ byte ∈ text, byte ≠ sep ∧ byte ≠ stringProtector)
    (rest : Bytes) (previous : Byte) (elem : Bytes) :
    splitLoop sep stringProtector (text ++ rest) previous false elem =
      splitLoop sep stringProtector rest (text.getLast?.getD previous) false (elem ++ text) := by
  induction text generalizing previous elem with
  | nil => simp
  | cons byte others ih =>
      have here := plain byte List.mem_cons_self
      have plainOthers : ∀ other ∈ others, other ≠ sep ∧ other ≠ stringProtector :=
        fun other member => plain other (List.mem_cons_of_mem byte member)
      simp only [List.cons_append, splitLoop, here.1, here.2, false_and, if_false,
        Bool.false_eq_true, ne_eq, not_false_eq_true, if_true]
      rw [ih plainOthers, List.getLast?_cons, Option.getD_some, List.append_assoc,
        List.singleton_append]

/-- Inside of a protected part every other byte is collected. -/
theorem splitLoop_inString {text : Bytes} (noProtector : stringProtector ∉ text) (rest : Bytes)
    (previous : Byte) (elem : Bytes) :
    splitLoop sep stringProtector (text ++ rest) previous true elem =
      splitLoop sep stringProtector rest (text.getLast?.getD previous) true (elem ++ text) := by
  induction text generalizing previous elem with
  | nil => simp
  | cons byte others ih =>
      rw [List.mem_cons, not_or] at noProtector
      simp only [List.cons_append, splitLoop, Ne.symm noProtector.1, false_and, if_false, if_true]
      rw [ih noProtector.2, List.getLast?_cons, Option.getD_some, List.append_assoc,
        List.singleton_append]

end miutil

namespace ProviderList

/-- `ProviderList::decode`, without the provider name it also returns. -/
def decode (toDecode : Bytes) : ProviderList := decode_ toDecode true

/-- The text is enclosed in single quotes. -/
def IsQuoted (text : Bytes) : Prop :=
  2 ≤ text.length ∧ text.head? = some (Bytes.chr '\'') ∧ text.getLast? = some (Bytes.chr '\'')

/-- What a provider name must be for its printed form to be read back. -/
structure IsProvider (provider : Bytes) : Prop where
  nonempty : provider ≠ []
  trimmed : Trimmed provider
  noBracket : Bytes.chr '[' ∉ provider

/-! ## One item -/

variable {provider : Bytes}

theorem find_openBracket (isProvider : IsProvider provider) (rest : Bytes) :
    findByte (provider ++ Bytes.str " [" ++ rest) (Bytes.chr '[') = some (provider.length + 1) := by
  have absent : Bytes.chr '[' ∉ provider ++ [Bytes.chr ' '] := by
    rw [List.mem_append, not_or]
    exact ⟨isProvider.noBracket, by decide⟩
  have found := findByte_append absent rest
  rw [List.append_assoc, List.length_append] at found
  rw [List.append_assoc]
  exact found

theorem take_provider (provider rest : Bytes) :
    (provider ++ Bytes.str " [" ++ rest).take (provider.length + 1) =
      provider ++ [Bytes.chr ' '] := by
  rw [List.append_assoc, List.take_length_add_append]
  rfl

theorem drop_provider (provider rest : Bytes) :
    (provider ++ Bytes.str " [" ++ rest).drop (provider.length + 1 + 1) = rest := by
  rw [List.append_assoc, add_assoc, List.drop_length_add_append]
  rfl

theorem find_closeBracket {inside : Bytes} (noBracket : Bytes.chr ']' ∉ inside) :
    findByte (inside ++ Bytes.str "]") (Bytes.chr ']') = some inside.length :=
  findByte_append noBracket []

/-- Both kinds of list decoding come to the text between the brackets. -/
theorem decode_bracketed (isProvider : IsProvider provider) {inside : Bytes}
    (noBracket : Bytes.chr ']' ∉ inside) (trimmed : Trimmed inside) (mayBeList : Bool) :
    decode_ (provider ++ Bytes.str " [" ++ inside ++ Bytes.str "]") mayBeList =
      let items :=
        if mayBeList then
          let names := (miutil.splitstr inside (Bytes.chr ',') (Bytes.chr '\'')).map
            fun name => miutil.trimstr name miutil.blanks
          (names.filter fun name => !name.isEmpty).map fun name =>
            (⟨provider, unquote name⟩ : ProviderItem)
        else if (unquote inside).isEmpty then [] else [⟨provider, unquote inside⟩]
      if items.isEmpty then [⟨provider, []⟩] else items := by
  have name : miutil.trimstr (provider ++ [Bytes.chr ' ']) miutil.blanks = provider :=
    miutil.trimstr_append isProvider.trimmed [] [Bytes.chr ' '] (by simp)
      (List.forall_mem_singleton.mpr (by decide))
  have notEmpty : provider.isEmpty = false := by
    simpa using isProvider.nonempty
  rw [List.append_assoc, decode_, find_openBracket isProvider]
  simp only [take_provider, drop_provider, name, notEmpty, Bool.false_eq_true, if_false,
    find_closeBracket noBracket, List.take_left, miutil.trimstr_of_trimmed trimmed]

theorem unquote_of_not_isQuoted {text : Bytes} (notQuoted : ¬IsQuoted text) :
    unquote text = text :=
  if_neg notQuoted

/-- An item is what both decoders make of its printed form. -/
theorem decode_providerWithPlacename (item : ProviderItem) (isProvider : IsProvider item.provider)
    (trimmed : Trimmed item.placename) (noBracket : Bytes.chr ']' ∉ item.placename)
    (notQuoted : ¬IsQuoted item.placename) :
    decodeItem item.providerWithPlacename = item ∧
      ProviderItem.decode item.providerWithPlacename = item := by
  cases item with
  | mk provider placename =>
      by_cases empty : placename = []
      · subst empty
        have noPlacename := findByte_eq_none isProvider.noBracket
        simp [ProviderItem.providerWithPlacename, decodeItem, decode_, ProviderItem.decode,
          noPlacename]
      · have notEmpty : placename.isEmpty = false := by simpa using empty
        have name : trim (provider ++ [Bytes.chr ' ']) = provider :=
          isProvider.trimmed.trimBy_append [] [Bytes.chr ' '] (by simp)
            (List.forall_mem_singleton.mpr (by decide))
        have place : trim placename = placename := trimmed.trimBy_eq
        simp only [ProviderItem.providerWithPlacename, notEmpty, Bool.false_eq_true, if_false]
        constructor
        · rw [decodeItem, decode_bracketed isProvider noBracket trimmed,
            unquote_of_not_isQuoted notQuoted]
          simp [notEmpty]
        · rw [List.append_assoc, ProviderItem.decode, find_openBracket isProvider]
          simp only [take_provider, drop_provider, name, find_closeBracket noBracket,
            List.take_left, place]

/-! ## Lists of place names -/

/-- A place name as it is written in a list. -/
def written (name : Bytes) : Bytes :=
  if Bytes.chr ',' ∈ name then Bytes.chr '\'' :: name ++ [Bytes.chr '\''] else name

/-- The place names of a list as text. -/
def writtenNames (names : List Bytes) : Bytes :=
  (Bytes.str ", ").intercalate (names.map written)

/-- What a place name must be for it to be read back from a list. -/
structure IsPlacename (name : Bytes) : Prop where
  nonempty : name ≠ []
  trimmed : Trimmed name
  noQuote : Bytes.chr '\'' ∉ name
  noBracket : Bytes.chr ']' ∉ name

theorem writtenNames_cons_cons (name next : Bytes) (others : List Bytes) :
    writtenNames (name :: next :: others) =
      written name ++ (Bytes.chr ',' :: Bytes.chr ' ' :: writtenNames (next :: others)) := by
  simp only [writtenNames, List.map_cons, List.intercalate_cons_cons, List.append_assoc]
  rfl

variable {name : Bytes}

theorem IsPlacename.trimmed_written (isPlacename : IsPlacename name) : Trimmed (written name) := by
  rw [written]
  split
  · constructor
    · intro byte first
      cases first
      decide
    · intro byte last
      rw [List.getLast?_concat] at last
      cases last
      decide
  · exact isPlacename.trimmed

theorem IsPlacename.written_ne_nil (isPlacename : IsPlacename name) : written name ≠ [] := by
  rw [written]
  split
  · simp
  · exact isPlacename.nonempty

theorem IsPlacename.unquote_written (isPlacename : IsPlacename name) :
    unquote (written name) = name := by
  rw [written]
  split
  · have middle : ((Bytes.chr '\'' :: name ++ [Bytes.chr '\'']).drop 1).take
        ((Bytes.chr '\'' :: name ++ [Bytes.chr '\'']).length - 2) = name := by
      simp
    rw [unquote, if_pos]
    · rw [middle, miutil.trimstr_of_trimmed isPlacename.trimmed]
    · refine ⟨by simp, rfl, List.getLast?_concat⟩
  · apply unquote_of_not_isQuoted
    intro quoted
    exact isPlacename.noQuote (List.mem_of_head? quoted.2.1)

/-- A name that stands in quotes, unless the quote behind it is escaped. -/
def EndsOpen (name : Bytes) : Prop :=
  Bytes.chr ',' ∈ name ∧ name.getLast? = some (Bytes.chr '\\')

/-- The loop of `splitstr` comes to the end of a written name, with the name collected. -/
theorem splitLoop_written (isPlacename : IsPlacename name) (closed : ¬EndsOpen name)
    (rest : Bytes) {previous : Byte} (notEscaped : previous ≠ Bytes.chr '\\') (elem : Bytes) :
    ∃ last, miutil.splitLoop (Bytes.chr ',') (Bytes.chr '\'') (written name ++ rest) previous false
        elem =
      miutil.splitLoop (Bytes.chr ',') (Bytes.chr '\'') rest last false (elem ++ written name) := by
  rw [written]
  split
  · rename_i comma
    refine ⟨Bytes.chr '\'', ?_⟩
    have behind : name.getLast?.getD (Bytes.chr '\'') ≠ Bytes.chr '\\' := by
      cases last : name.getLast? with
      | none => exact absurd (List.getLast?_eq_none_iff.mp last) isPlacename.nonempty
      | some byte =>
          intro escape
          exact closed ⟨comma, by rw [last, ← escape]; rfl⟩
    rw [List.cons_append, List.cons_append, miutil.splitLoop, if_pos ⟨rfl, notEscaped⟩,
      List.append_assoc, Bool.not_false, miutil.splitLoop_inString isPlacename.noQuote,
      List.singleton_append, miutil.splitLoop, if_pos ⟨rfl, behind⟩]
    simp
  · rename_i noComma
    refine ⟨_, miutil.splitLoop_plain ?_ rest previous elem⟩
    intro byte member
    constructor
    · intro same
      exact noComma (same ▸ member)
    · intro same
      exact isPlacename.noQuote (same ▸ member)

/-- The same at the end of the text, where it does not matter whether the last quote closes. -/
theorem splitLoop_written_end (isPlacename : IsPlacename name) {previous : Byte}
    (notEscaped : previous ≠ Bytes.chr '\\') (elem : Bytes) :
    miutil.splitLoop (Bytes.chr ',') (Bytes.chr '\'') (written name) previous false elem =
      [miutil.trimstr (elem ++ written name) miutil.blanks] := by
  by_cases closed : EndsOpen name
  · rw [written, if_pos closed.1, List.cons_append, miutil.splitLoop, if_pos ⟨rfl, notEscaped⟩,
      Bool.not_false, miutil.splitLoop_inString isPlacename.noQuote, closed.2, Option.getD_some,
      miutil.splitLoop, if_neg (by decide), if_pos rfl, miutil.splitLoop]
    simp
  · rcases splitLoop_written isPlacename closed [] notEscaped elem with ⟨last, collected⟩
    rw [List.append_nil] at collected
    rw [collected, miutil.splitLoop]

theorem splitLoop_separator (rest : Bytes) (previous : Byte) (elem : Bytes) :
    miutil.splitLoop (Bytes.chr ',') (Bytes.chr '\'') (Bytes.chr ',' :: Bytes.chr ' ' :: rest)
        previous false elem =
      miutil.trimstr elem miutil.blanks ::
        miutil.splitLoop (Bytes.chr ',') (Bytes.chr '\'') rest (Bytes.chr ' ') false
          [Bytes.chr ' '] := by
  have commaQuote : Bytes.chr ',' ≠ Bytes.chr '\'' := by decide
  have blankQuote : Bytes.chr ' ' ≠ Bytes.chr '\'' := by decide
  have blankComma : Bytes.chr ' ' ≠ Bytes.chr ',' := by decide
  simp [miutil.splitLoop, commaQuote, blankQuote, blankComma]

theorem splitLoop_writtenNames {names : List Bytes} (some : names ≠ [])
    (arePlacenames : ∀ name ∈ names, IsPlacename name)
    (closed : ∀ name ∈ names.dropLast, ¬EndsOpen name) {previous : Byte}
    (notEscaped : previous ≠ Bytes.chr '\\') {elem : Bytes}
    (blank : ∀ byte ∈ elem, miutil.blanks.contains byte = true) :
    miutil.splitLoop (Bytes.chr ',') (Bytes.chr '\'') (writtenNames names) previous false elem =
      names.map written := by
  induction names generalizing previous elem with
  | nil => exact absurd rfl some
  | cons name others ih =>
      have isPlacename := arePlacenames name List.mem_cons_self
      have trimmed : miutil.trimstr (elem ++ written name) miutil.blanks = written name := by
        have whole := miutil.trimstr_append isPlacename.trimmed_written elem [] blank (by simp)
        rwa [List.append_nil] at whole
      cases others with
      | nil =>
          rw [writtenNames, List.map_singleton, List.intercalate_singleton,
            splitLoop_written_end isPlacename notEscaped, trimmed]
      | cons next others =>
          have closedHere : ¬EndsOpen name := closed name (by simp)
          have closedRest : ∀ other ∈ (next :: others).dropLast, ¬EndsOpen other := by
            intro other member
            apply closed other
            rw [List.dropLast_cons_cons]
            exact List.mem_cons_of_mem name member
          have restNames : miutil.splitLoop (Bytes.chr ',') (Bytes.chr '\'')
              (writtenNames (next :: others)) (Bytes.chr ' ') false [Bytes.chr ' '] =
                (next :: others).map written :=
            ih (by simp) (fun other member => arePlacenames other (List.mem_cons_of_mem name member))
              closedRest (by decide) (List.forall_mem_singleton.mpr (by decide))
          rcases splitLoop_written isPlacename closedHere
            (Bytes.chr ',' :: Bytes.chr ' ' :: writtenNames (next :: others)) notEscaped elem with
            ⟨last, collected⟩
          rw [writtenNames_cons_cons, collected, splitLoop_separator, trimmed, restNames]
          rfl

theorem IsPlacename.noBracket_written (isPlacename : IsPlacename name) :
    Bytes.chr ']' ∉ written name := by
  have quote : Bytes.chr ']' ≠ Bytes.chr '\'' := by decide
  rw [written]
  split
  · simp [quote, isPlacename.noBracket]
  · exact isPlacename.noBracket

/-- The text of a list of place names starts and ends with a place name. -/
theorem ends_writtenNames {names : List Bytes} (some : names ≠ [])
    (arePlacenames : ∀ name ∈ names, IsPlacename name) :
    writtenNames names ≠ [] ∧ Trimmed (writtenNames names) ∧ Bytes.chr ']' ∉ writtenNames names := by
  induction names with
  | nil => exact absurd rfl some
  | cons name others ih =>
      have isPlacename := arePlacenames name List.mem_cons_self
      cases others with
      | nil =>
          rw [writtenNames, List.map_singleton, List.intercalate_singleton]
          exact ⟨isPlacename.written_ne_nil, isPlacename.trimmed_written,
            isPlacename.noBracket_written⟩
      | cons next others =>
          have rest := ih (by simp) fun other member =>
            arePlacenames other (List.mem_cons_of_mem name member)
          have comma : Bytes.chr ']' ≠ Bytes.chr ',' := by decide
          have blank : Bytes.chr ']' ≠ Bytes.chr ' ' := by decide
          rw [writtenNames_cons_cons]
          refine ⟨by simp, ?_, ?_⟩
          · exact isPlacename.trimmed_written.append isPlacename.written_ne_nil
              [Bytes.chr ',', Bytes.chr ' '] rest.2.1 rest.1
          · simp [isPlacename.noBracket_written, comma, blank, rest.2.2]

/-- A list of place names is read back, when no name in quotes but the last ends with the byte
that escapes the quote behind it. -/
theorem decode_writtenNames (isProvider : IsProvider provider) {names : List Bytes}
    (some : names ≠ []) (arePlacenames : ∀ name ∈ names, IsPlacename name)
    (closed : ∀ name ∈ names.dropLast, ¬EndsOpen name) :
    decode (provider ++ Bytes.str " [" ++ writtenNames names ++ Bytes.str "]") =
      names.map fun name => ⟨provider, name⟩ := by
  rcases ends_writtenNames some arePlacenames with ⟨_, trimmed, noBracket⟩
  have split : miutil.splitstr (writtenNames names) (Bytes.chr ',') (Bytes.chr '\'') =
      names.map written :=
    splitLoop_writtenNames some arePlacenames closed (by decide) (by simp)
  have trimmedNames : (names.map written).map (fun name => miutil.trimstr name miutil.blanks) =
      names.map written := by
    rw [List.map_map]
    apply List.map_congr_left
    intro name member
    exact miutil.trimstr_of_trimmed (arePlacenames name member).trimmed_written
  have nonempty : (names.map written).filter (fun name => !name.isEmpty) = names.map written := by
    apply List.filter_eq_self.mpr
    intro text member
    rcases List.mem_map.mp member with ⟨name, isName, same⟩
    have notNil := (arePlacenames name isName).written_ne_nil
    simpa [← same] using notNil
  have items : (names.map written).map (fun name => (⟨provider, unquote name⟩ : ProviderItem)) =
      names.map fun name => ⟨provider, name⟩ := by
    rw [List.map_map]
    apply List.map_congr_left
    intro name member
    simp only [Function.comp_apply, (arePlacenames name member).unquote_written]
  rw [decode, decode_bracketed isProvider noBracket trimmed]
  simp only [if_true, split, trimmedNames, nonempty, items]
  rw [if_neg]
  simpa using some

/-- Items and lists of place names survive printing and parsing. -/
theorem providers_round_trip :
    (∀ item : ProviderItem, IsProvider item.provider → Trimmed item.placename →
      Bytes.chr ']' ∉ item.placename → ¬IsQuoted item.placename →
        decodeItem item.providerWithPlacename = item ∧
          ProviderItem.decode item.providerWithPlacename = item) ∧
    ∀ (provider : Bytes) (names : List Bytes), IsProvider provider → names ≠ [] →
      (∀ name ∈ names, IsPlacename name) → (∀ name ∈ names.dropLast, ¬EndsOpen name) →
        decode (provider ++ Bytes.str " [" ++ writtenNames names ++ Bytes.str "]") =
          names.map fun name => ⟨provider, name⟩ := by
  constructor
  · intro item isProvider trimmed noBracket notQuoted
    exact decode_providerWithPlacename item isProvider trimmed noBracket notQuoted
  · intro provider names isProvider some arePlacenames closed
    exact decode_writtenNames isProvider some arePlacenames closed

theorem trimmed_of_ends (first last : Byte) {text : Bytes} (isFirst : text.head? = some first)
    (isLast : text.getLast? = some last) (notFirst : isSpace first = false)
    (notLast : isSpace last = false) : Trimmed text := by
  constructor
  · intro byte head
    cases isFirst.symm.trans head
    exact notFirst
  · intro byte end_
    cases isLast.symm.trans end_
    exact notLast

theorem isProvider_arome : IsProvider (Bytes.str "arome") := by
  refine ⟨by decide, ?_, by decide⟩
  exact trimmed_of_ends (Bytes.chr 'a') (Bytes.chr 'e') rfl rfl (by decide) (by decide)

theorem isPlacename_oslo : IsPlacename (Bytes.str "oslo") := by
  refine ⟨by decide, ?_, by decide, by decide⟩
  exact trimmed_of_ends (Bytes.chr 'o') (Bytes.chr 'o') rfl rfl (by decide) (by decide)

theorem providers_round_trip_arome :
    decodeItem (⟨Bytes.str "arome", Bytes.str "oslo"⟩ : ProviderItem).providerWithPlacename =
        ⟨Bytes.str "arome", Bytes.str "oslo"⟩ ∧
      decode (Bytes.str "arome" ++ Bytes.str " [" ++ writtenNames [Bytes.str "oslo"] ++
        Bytes.str "]") = [⟨Bytes.str "arome", Bytes.str "oslo"⟩] := by
  have notQuoted : ¬IsQuoted (Bytes.str "oslo") := by
    rintro ⟨_, isFirst, _⟩
    exact absurd isFirst (by decide)
  constructor
  · exact (providers_round_trip.1 ⟨Bytes.str "arome", Bytes.str "oslo"⟩ isProvider_arome
      isPlacename_oslo.trimmed (by decide) notQuoted).1
  · apply providers_round_trip.2 (Bytes.str "arome") [Bytes.str "oslo"] isProvider_arome
    · exact List.cons_ne_nil _ _
    · intro name member
      rw [List.mem_singleton.mp member]
      exact isPlacename_oslo
    · intro name member
      cases member

/-- A place name with a comma whose last byte escapes the quote behind it, and another one. -/
def escapedNames : List Bytes := [Bytes.str "a,b\\", Bytes.str "c"]

theorem isPlacename_escapedNames : ∀ name ∈ escapedNames, IsPlacename name := by
  intro name member
  rcases List.mem_cons.mp member with same | rest
  · subst same
    refine ⟨by decide, ?_, by decide, by decide⟩
    exact trimmed_of_ends (Bytes.chr 'a') (Bytes.chr '\\') rfl rfl (by decide) (by decide)
  · rw [List.mem_singleton.mp rest]
    refine ⟨by decide, ?_, by decide, by decide⟩
    exact trimmed_of_ends (Bytes.chr 'c') (Bytes.chr 'c') rfl rfl (by decide) (by decide)

/-- The two names come back as one. -/
theorem escapedNames_not_read :
    IsProvider (Bytes.str "c") ∧ escapedNames ≠ [] ∧ (∀ name ∈ escapedNames, IsPlacename name) ∧
      decode (Bytes.str "c" ++ Bytes.str " [" ++ writtenNames escapedNames ++ Bytes.str "]") ≠
        escapedNames.map fun name => ⟨Bytes.str "c", name⟩ := by
  have provider := isPlacename_escapedNames (Bytes.str "c") (by decide)
  refine ⟨⟨provider.nonempty, provider.trimmed, by decide⟩, by decide, isPlacename_escapedNames, ?_⟩
  decide +kernel

end ProviderList

end Wdb2ts
