import Wdb2ts.WciSqlLiterals

/-!
# Client values in a generated query

Every decoder sees the value of its own keys once.  So the select parts of a decoded query
are those of its values, and the string literals of the generated text are the elements of
these values.
-/

universe u

namespace Wdb2ts

open SqlText

namespace WciWebQuery

variable {F : Type} [TextFunctions F]

/-! ## Decoding without an exception -/

/-- A key is decoded without an exception when it or its value is empty, or when its decoder
accepts the value. -/
theorem decodeKey_cases {query : WciWebQuery F} {key val : Bytes}
    (accepted : (query.decodeKey key val).1 = none) :
    ((key = [] ∨ val = []) ∧ (query.decodeKey key val).2 = query) ∨
      ∃ decoder, key ≠ [] ∧ val ≠ [] ∧ decoders.lookup key = some decoder ∧
        (query.runDecoder decoder val).1 = none ∧
        (query.decodeKey key val).2 = (query.runDecoder decoder val).2 := by
  simp only [decodeKey] at accepted ⊢
  by_cases noKey : key = []
  · exact Or.inl ⟨Or.inl noKey, by simp [noKey]⟩
  · have someKey : key.isEmpty = false := by simpa using noKey
    simp only [someKey, Bool.false_eq_true, if_false] at accepted ⊢
    cases known : decoders.lookup key with
    | none => simp [known] at accepted
    | some decoder =>
        simp only [known] at accepted ⊢
        by_cases noVal : val = []
        · exact Or.inl ⟨Or.inr noVal, by simp [noVal]⟩
        · have someVal : val.isEmpty = false := by simpa using noVal
          simp only [someVal, Bool.false_eq_true, if_false] at accepted ⊢
          cases outcome : query.runDecoder decoder val with
          | mk exception next =>
              cases exception with
              | some what => simp [outcome] at accepted
              | none => exact Or.inr ⟨decoder, noKey, noVal, rfl, by rw [outcome], by rw [outcome]⟩

/-- A part of a query that belongs to one decoder with a single key, and what the decoder does
to it. -/
structure BelongsTo {ω : Type} (observe : WciWebQuery F → ω) (key : Bytes) (own : Decoder)
    (effect : ω → Bytes → ω → Prop) : Prop where
  known : decoders.lookup key = some own
  single : ∀ entry ∈ decoders, entry.2 = own → entry.1 = key
  frame : ∀ query decoder val, decoder ≠ own →
    observe (query.runDecoder decoder val).2 = observe query
  decodes : ∀ query val, (query.runDecoder own val).1 = none →
    effect (observe query) val (observe (query.runDecoder own val).2)

variable {ω : Type} {observe : WciWebQuery F → ω} {key : Bytes} {own : Decoder}
  {effect : ω → Bytes → ω → Prop}

/-- One key, seen at a part of the query. -/
theorem BelongsTo.decodeKey (belongs : BelongsTo observe key own effect)
    {query : WciWebQuery F} {other val : Bytes}
    (accepted : (query.decodeKey other val).1 = none) :
    if other = key ∧ key ≠ [] ∧ val ≠ [] then
      effect (observe query) val (observe (query.decodeKey other val).2)
    else observe (query.decodeKey other val).2 = observe query := by
  rcases decodeKey_cases accepted with
    ⟨isEmpty, same⟩ | ⟨decoder, someKey, someVal, known, decoded, same⟩
  · rw [same, if_neg]
    rintro ⟨rfl, someKey, someVal⟩
    exact isEmpty.elim someKey someVal
  · rw [same]
    by_cases isOwn : decoder = own
    · subst isOwn
      have member : (other, decoder) ∈ decoders := by
        rcases List.lookup_eq_some_iff.mp known with ⟨before, after, split, _⟩
        simp [split]
      have isKey : other = key := belongs.single _ member rfl
      rw [if_pos ⟨isKey, isKey ▸ someKey, someVal⟩]
      exact belongs.decodes query val decoded
    · rw [if_neg]
      · exact belongs.frame query decoder val isOwn
      · rintro ⟨rfl, _⟩
        exact isOwn (Option.some.inj (known.symm.trans belongs.known))

/-- The first key of an accepted loop, and the rest of the loop. -/
theorem accepted_cons {param : Bytes × Bytes} {rest : List (Bytes × Bytes)}
    {query : WciWebQuery F} (accepted : (decodeKeys (param :: rest) query).1 = none) :
    (query.decodeKey param.1 param.2).1 = none ∧
      (decodeKeys rest (query.decodeKey param.1 param.2).2).1 = none ∧
      (decodeKeys (param :: rest) query).2 =
        (decodeKeys rest (query.decodeKey param.1 param.2).2).2 := by
  simp only [decodeKeys] at accepted ⊢
  cases outcome : query.decodeKey param.1 param.2 with
  | mk exception next =>
      cases exception with
      | some what => simp [outcome] at accepted
      | none =>
          simp only [outcome] at accepted
          exact ⟨rfl, accepted, rfl⟩

/-- What every accepted key preserves holds after the loop. -/
theorem preserved_decodeKeys (Holds : WciWebQuery F → Prop)
    (preserved : ∀ query decoder val, Holds query → (query.runDecoder decoder val).1 = none →
      Holds (query.runDecoder decoder val).2)
    {params : List (Bytes × Bytes)} {query : WciWebQuery F} (holds : Holds query)
    (accepted : (decodeKeys params query).1 = none) : Holds (decodeKeys params query).2 := by
  induction params generalizing query with
  | nil => exact holds
  | cons param rest ih =>
      obtain ⟨acceptedFirst, acceptedRest, same⟩ := accepted_cons accepted
      rw [same]
      refine ih ?_ acceptedRest
      rcases decodeKey_cases acceptedFirst with
        ⟨_, unchanged⟩ | ⟨decoder, _, _, _, decoded, changed⟩
      · rw [unchanged]
        exact holds
      · rw [changed]
        exact preserved query decoder param.2 holds decoded

/-- A part of the query whose key has no value is left alone. -/
theorem BelongsTo.unchanged (belongs : BelongsTo observe key own effect)
    {params : List (Bytes × Bytes)} (noVal : ∀ param ∈ params, param.1 = key → param.2 = [])
    {query : WciWebQuery F} (accepted : (WciWebQuery.decodeKeys params query).1 = none) :
    observe (WciWebQuery.decodeKeys params query).2 = observe query := by
  induction params generalizing query with
  | nil => rfl
  | cons param rest ih =>
      obtain ⟨acceptedFirst, acceptedRest, same⟩ := accepted_cons accepted
      have first := belongs.decodeKey acceptedFirst
      rw [if_neg] at first
      · have later := ih (fun param member => noVal param (List.mem_cons_of_mem _ member))
          acceptedRest
        rw [same, later, first]
      · rintro ⟨isKey, _, someVal⟩
        exact someVal (noVal param List.mem_cons_self isKey)

/-- When the keys differ, a part of the query sees the value of its own key once. -/
theorem BelongsTo.changed (belongs : BelongsTo observe key own effect) (someKey : key ≠ [])
    {params : List (Bytes × Bytes)} {val : Bytes} (someVal : val ≠ [])
    (distinct : params.Pairwise fun left right => left.1 ≠ right.1)
    (member : (key, val) ∈ params) {query : WciWebQuery F}
    (accepted : (WciWebQuery.decodeKeys params query).1 = none) :
    effect (observe query) val (observe (WciWebQuery.decodeKeys params query).2) := by
  induction params generalizing query with
  | nil => cases member
  | cons param rest ih =>
      rw [List.pairwise_cons] at distinct
      obtain ⟨acceptedFirst, acceptedRest, same⟩ := accepted_cons accepted
      have first := belongs.decodeKey acceptedFirst
      rw [same]
      rcases List.mem_cons.mp member with rfl | inRest
      · rw [if_pos ⟨rfl, someKey, someVal⟩] at first
        rw [belongs.unchanged (fun other isOther isKey =>
          absurd isKey.symm (distinct.1 other isOther)) acceptedRest]
        exact first
      · rw [if_neg fun all => distinct.1 _ inRest all.1] at first
        rw [← first]
        exact ih distinct.2 inRest acceptedRest

/-- A part of the query after the loop: as before when its key has no value, and else decoded
from the value. -/
theorem BelongsTo.decodeParams (belongs : BelongsTo observe key own effect) (someKey : key ≠ [])
    (params : SortedMap Bytes Bytes) {query : WciWebQuery F}
    (accepted : (WciWebQuery.decodeKeys params.entries query).1 = none) :
    let val := (params.find? key).getD []
    (val = [] ∧ observe (WciWebQuery.decodeKeys params.entries query).2 = observe query) ∨
      (val ≠ [] ∧
        effect (observe query) val (observe (WciWebQuery.decodeKeys params.entries query).2)) := by
  by_cases noVal : (params.find? key).getD [] = []
  · refine Or.inl ⟨noVal, belongs.unchanged ?_ accepted⟩
    rintro ⟨name, val⟩ member rfl
    rw [SortedMap.mem_entries_iff.mp member] at noVal
    exact noVal
  · refine Or.inr ⟨noVal, belongs.changed someKey noVal (params.sorted.imp ne_of_lt) ?_ accepted⟩
    rw [SortedMap.mem_entries_iff]
    cases found : params.find? key with
    | none => simp [found] at noVal
    | some val => rfl

theorem belongsTo_dataprovider :
    BelongsTo (fun query : WciWebQuery F => query.dataprovider) (Bytes.str "dataprovider")
      .dataprovider (fun old val new => new = old.decode val) where
  known := rfl
  single := by decide
  frame query decoder val isOther := by
    cases decoder with
    | dataprovider => exact absurd rfl isOther
    | _ => rfl
  decodes query val _ := rfl

theorem belongsTo_parameter :
    BelongsTo (fun query : WciWebQuery F => query.parameter) (Bytes.str "parameter")
      .parameter (fun old val new => new = old.decode val) where
  known := rfl
  single := by decide
  frame query decoder val isOther := by
    cases decoder with
    | parameter => exact absurd rfl isOther
    | _ => rfl
  decodes query val _ := rfl

theorem belongsTo_pointInterpolation :
    BelongsTo (fun query : WciWebQuery F => query.pointInterpolation)
      (Bytes.str "point_interpolation") .pointInterpolation
      (fun old val new => new = old.decode val) where
  known := rfl
  single := by decide
  frame query decoder val isOther := by
    cases decoder with
    | pointInterpolation => exact absurd rfl isOther
    | _ => rfl
  decodes query val _ := rfl

theorem belongsTo_levelspec :
    BelongsTo (fun query : WciWebQuery F => query.levelspec) (Bytes.str "levelspec")
      .levelspec (fun old val new => (old.decode val).1 = none ∧ new = (old.decode val).2) where
  known := rfl
  single := by decide
  frame query decoder val isOther := by
    cases decoder with
    | levelspec => exact absurd rfl isOther
    | _ => rfl
  decodes query val accepted := ⟨accepted, rfl⟩

/-! ## The parts of a decoded query -/

/-- The parts of a query that hold no text of a client, and the columns. -/
structure ClosedParts (returnCol : Bytes) (query : WciWebQuery F) : Prop where
  columns : query.returnColoumns = returnCol
  reftime : Closed query.reftime.selectPart_
  validtime : Closed query.validtime.selectPart_
  dataversion : sqlQuote ∉ query.dataversion.selectPart_
  polygon : sqlQuote ∉ query.polygon.selectPart_

theorem ClosedParts.runDecoder {returnCol : Bytes} (query : WciWebQuery F) (decoder : Decoder)
    (val : Bytes) (closed : ClosedParts returnCol query)
    (accepted : (query.runDecoder decoder val).1 = none) :
    ClosedParts returnCol (query.runDecoder decoder val).2 := by
  cases decoder with
  | reftime => exact { closed with reftime := closed_timeSpec accepted }
  | validtime => exact { closed with validtime := closed_timeSpec accepted }
  | dataversion => exact { closed with dataversion := noQuote_integer accepted }
  | polygon => exact { closed with polygon := noQuote_polygon closed.polygon }
  | _ => exact { closed with }

omit [TextFunctions F] in
theorem ClosedParts.withFlag {returnCol : Bytes} {query : WciWebQuery F}
    (closed : ClosedParts returnCol query) (flag : Bool) :
    ClosedParts returnCol (query.withFlag flag) := { closed with }

theorem closedParts_clean (protocol : ℤ) (returnCol : Bytes) :
    ClosedParts returnCol (new protocol returnCol : WciWebQuery F).clean where
  columns := rfl
  reftime := closed_null
  validtime := closed_null
  dataversion := noQuote_arrayOf [-1]
  polygon := List.not_mem_nil

/-- The value a client gives for a key, empty when the key is left out. -/
def clientValue (params : SortedMap Bytes Bytes) (key : String) : Bytes :=
  (params.find? (Bytes.str key)).getD []

/-- The text of `point_interpolation` that is decoded, for the value a client gives. -/
def interpolationText (val : Bytes) : Bytes :=
  if val.isEmpty then Bytes.str "nearest" else val

/-- The interpolation a value of `point_interpolation` asks for: the trimmed value, `nearest`
when it is left out, and `NEAREST` when nothing is left of it. -/
def interpolationOf (val : Bytes) : Bytes :=
  let trimmed := miutil.trimstr (interpolationText val) blanksAndQuotes
  if trimmed.isEmpty then Bytes.str "NEAREST" else trimmed

/-- The parts of a query that hold the texts of a client, for the values of the keys. -/
structure ClientParts (protocol : ℤ) (params : SortedMap Bytes Bytes) (query : WciWebQuery F) :
    Prop where
  dataprovider : query.dataprovider.selectPart_ =
    sqlArray (Bytes.str "ARRAY[ ") (Bytes.str " ]")
      (elements (clientValue params "dataprovider"))
  parameter : query.parameter.selectPart_ =
    sqlArray (Bytes.str "array[") (Bytes.str "]")
      (elements (clientValue params "parameter"))
  levelspec : ∃ levels, LevelSelect protocol
    (trimmedElements (clientValue params "levelspec"))
    query.levelspec.selectPart_ levels
  pointInterpolation : query.pointInterpolation.selectPart_ =
    UrlParamString.selectOf false (UrlParamString.valuesOf false
      (interpolationText (clientValue params "point_interpolation")))

omit [TextFunctions F] in
theorem ClientParts.withFlag {protocol : ℤ} {params : SortedMap Bytes Bytes}
    {query : WciWebQuery F} (client : ClientParts protocol params query) (flag : Bool) :
    ClientParts protocol params (query.withFlag flag) := { client with }

theorem clientParts_decodeKeys {protocol : ℤ} {returnCol : Bytes}
    {params : SortedMap Bytes Bytes}
    (accepted : (decodeKeys params.entries (new protocol returnCol : WciWebQuery F).clean).1 =
      none) :
    ClientParts protocol params
      (decodeKeys params.entries (new protocol returnCol : WciWebQuery F).clean).2 := by
  have dataprovider := belongsTo_dataprovider.decodeParams (by decide) params accepted
  have parameter := belongsTo_parameter.decodeParams (by decide) params accepted
  have levelspec := belongsTo_levelspec.decodeParams (by decide) params accepted
  have interpolation := belongsTo_pointInterpolation.decodeParams (by decide) params accepted
  constructor
  · rcases dataprovider with ⟨noVal, same⟩ | ⟨_, decoded⟩
    · rw [same, clientValue, noVal]
      rfl
    · rw [decoded]
      rfl
  · rcases parameter with ⟨noVal, same⟩ | ⟨_, decoded⟩
    · rw [same, clientValue, noVal]
      rfl
    · rw [decoded]
      rfl
  · rcases levelspec with ⟨noVal, same⟩ | ⟨_, accepted, decoded⟩
    · rw [same, clientValue, noVal]
      exact ⟨[], .absent (by decide)⟩
    · rw [decoded]
      exact levelSelect_decode accepted
  · rcases interpolation with ⟨noVal, same⟩ | ⟨someVal, decoded⟩
    · rw [same, clientValue, noVal]
      rfl
    · rw [decoded, interpolationText, if_neg]
      · rfl
      · simpa [clientValue] using someVal

theorem noQuote_trimmed {text : Bytes} (trimset : Bytes) (noQuote : sqlQuote ∉ text) :
    sqlQuote ∉ miutil.trimstr text trimset := fun member =>
  noQuote (Bytes.mem_of_mem_trimBy member)

theorem noQuote_interpolationText {val : Bytes} (noQuote : sqlQuote ∉ val) :
    sqlQuote ∉ interpolationText val := by
  rw [interpolationText]
  split
  · decide
  · exact noQuote

omit [TextFunctions F] in
/-- The interpolation of a query is the text between the quotes of its select part. -/
theorem sPointInterpolation_eq {query : WciWebQuery F} {val : Bytes}
    (selectPart : query.pointInterpolation.selectPart_ =
      UrlParamString.selectOf false (UrlParamString.valuesOf false (interpolationText val)))
    (noQuote : sqlQuote ∉ val) : query.sPointInterpolation = interpolationOf val := by
  have noQuoteText := noQuote_interpolationText noQuote
  have noQuoteTrimmed := noQuote_trimmed blanksAndQuotes noQuoteText
  simp only [sPointInterpolation, interpolationOf, selectPart, UrlParamString.valuesOf,
    Bool.false_eq_true, if_false]
  generalize miutil.trimstr (interpolationText val) blanksAndQuotes = trimmed at noQuoteTrimmed ⊢
  cases trimmed with
  | nil => rfl
  | cons first rest =>
      have notNull : quoted (first :: rest) ≠ Bytes.str "NULL" := by
        intro equal
        have sameFirst : Bytes.chr '\'' = Bytes.chr 'N' := List.head_eq_of_cons_eq equal
        revert sameFirst
        decide
      have unquoted : miutil.trimstr (quoted (first :: rest)) [Bytes.chr '\''] = first :: rest := by
        refine Bytes.trimBy_enclosed (by decide) fun byte member => ?_
        rw [List.contains_eq_mem, decide_eq_false_iff_not, List.mem_singleton]
        rintro rfl
        exact noQuoteTrimmed member
      simp only [UrlParamString.selectOf, Bool.false_eq_true, if_false, List.isEmpty_cons,
        if_neg notNull, unquoted]

theorem noQuote_interpolationOf {val : Bytes} (noQuote : sqlQuote ∉ val) :
    sqlQuote ∉ interpolationOf val := by
  have noQuoteText := noQuote_interpolationText noQuote
  simp only [interpolationOf]
  split
  · decide
  · exact noQuote_trimmed _ noQuoteText

/-! ## The generated text -/

theorem reads_argument {selectPart : Bytes} {values : List Bytes}
    (reads : Reads sqlQuote selectPart values) : Reads sqlQuote (argument selectPart) values :=
  ((reads.prepend (show sqlQuote ∉ Bytes.str "   " by decide)).append_code
    (show sqlQuote ∉ Bytes.str ", " by decide)).append_code (by decide)

theorem head_argument (selectPart : Bytes) :
    (argument selectPart).head? ≠ some sqlQuote := by
  change some (Bytes.chr ' ') ≠ some sqlQuote
  decide

/-- A piece and the next argument. -/
theorem reads_append_argument {piece selectPart : Bytes} {before values : List Bytes}
    (readsPiece : Reads sqlQuote piece before) (reads : Reads sqlQuote selectPart values) :
    Reads sqlQuote (piece ++ argument selectPart) (before ++ values) :=
  readsPiece.append (reads_argument reads) (head_argument selectPart)

/-- The literals of a text whose parts are closed. -/
theorem reads_readText (query : WciWebQuery F) {columns dataproviders reftimes validtimes
      parameters levels : List Bytes}
    (readsColumns : Reads sqlQuote query.returnColoumns columns)
    (readsProviders : Reads sqlQuote query.dataprovider.selectPart_ dataproviders)
    (noQuotePlace : sqlQuote ∉ query.place)
    (readsReftime : Reads sqlQuote query.reftime.selectPart_ reftimes)
    (readsValidtime : Reads sqlQuote query.validtime.selectPart_ validtimes)
    (readsParameter : Reads sqlQuote query.parameter.selectPart_ parameters)
    (readsLevels : Reads sqlQuote query.levelspec.selectPart_ levels)
    (noQuoteVersion : sqlQuote ∉ query.dataversion.selectPart_) :
    Reads sqlQuote query.readText
      (columns ++ dataproviders ++ [query.place] ++ reftimes ++ validtimes ++ parameters ++
        levels) := by
  have start := ((readsColumns.prepend (show sqlQuote ∉ Bytes.str "SELECT " by decide)).append_code
    (show sqlQuote ∉ Bytes.str " FROM wci.read(" by decide)).append_code
    (show sqlQuote ∉ endl by decide)
  have withProviders := reads_append_argument start readsProviders
  have withPlace := reads_append_argument withProviders (reads_quoted noQuotePlace)
  have withReftime := reads_append_argument withPlace readsReftime
  have withValidtime := reads_append_argument withReftime readsValidtime
  have withParameter := reads_append_argument withValidtime readsParameter
  have withLevels := reads_append_argument withParameter readsLevels
  have withVersion := reads_append_argument withLevels (reads_of_not_mem noQuoteVersion)
  rw [List.append_nil] at withVersion
  exact (withVersion.append_code (show sqlQuote ∉ Bytes.str "   NULL::wci.returnfloat )" by
    decide)).append_code (by decide)

/-- The place of the data of a query: the decoded polygon, or else the interpolation a client
asks for and the point. -/
def placeOf (params : SortedMap Bytes Bytes) (query : WciWebQuery F) : Bytes :=
  if query.isPolygon then query.polygon.selectPart_
  else
    interpolationOf (clientValue params "point_interpolation") ++ Bytes.str " POINT(" ++
      TextFunctions.printFloat query.longitude.value_ ++ Bytes.str " " ++
      TextFunctions.printFloat query.latitude.value_ ++ Bytes.str ")"

/-- The place of a query is the one of its client. -/
theorem ClientParts.place_eq {protocol : ℤ} {params : SortedMap Bytes Bytes}
    {query : WciWebQuery F} (client : ClientParts protocol params query)
    (noQuote : sqlQuote ∉ clientValue params "point_interpolation") :
    query.place = placeOf params query := by
  rw [place, placeOf, sPointInterpolation_eq client.pointInterpolation noQuote]

theorem ClosedParts.noQuote_placeOf {returnCol : Bytes} {params : SortedMap Bytes Bytes}
    {query : WciWebQuery F} (closed : ClosedParts returnCol query)
    (noQuote : sqlQuote ∉ clientValue params "point_interpolation") :
    sqlQuote ∉ placeOf params query := by
  rw [placeOf]
  split
  · exact closed.polygon
  · have noQuoteInterpolation := noQuote_interpolationOf noQuote
    exact noQuote_append (noQuote_append (noQuote_append (noQuote_append
      (noQuote_append noQuoteInterpolation (by decide)) (TextFunctions.printFloat_noQuote _))
      (by decide)) (TextFunctions.printFloat_noQuote _)) (by decide)

theorem readText_of_wciReadQuery {query : WciWebQuery F} {sql : Bytes}
    (written : query.wciReadQuery = .ok sql) : query.readText = sql := by
  rw [wciReadQuery] at written
  split at written
  · cases written
  · exact Except.ok.inj written

/-- The string literals of the text of an accepted query are those of the column list, the
elements of the dataproviders, the place, the times, the elements of the parameters, and the
levels. -/
theorem literals_decode {protocol : ℤ} {returnCol : Bytes} {columns : List Bytes}
    (readsColumns : Reads sqlQuote returnCol columns) {history : List Bytes} {text sql : Bytes}
    {query : WciWebQuery F} {urlQuery : UrlQuery}
    (accepted : ((new protocol returnCol : WciWebQuery F).after history).decode text =
      (.ok sql, query))
    (urlDecoded : UrlQuery.decode text false UrlQuery.new = (none, urlQuery))
    (noQuote : ∀ key ∈ ["dataprovider", "parameter", "levelspec", "point_interpolation"],
      sqlQuote ∉ clientValue urlQuery.params key) :
    ∃ reftimes validtimes levels,
      LevelSelect protocol (trimmedElements (clientValue urlQuery.params "levelspec"))
        query.levelspec.selectPart_ levels ∧
      literals sqlQuote .outside sql =
        some (columns ++ elements (clientValue urlQuery.params "dataprovider") ++
          [placeOf urlQuery.params query] ++ reftimes ++ validtimes ++
          elements (clientValue urlQuery.params "parameter") ++ levels) := by
  have decoded := decodeValues_after F protocol returnCol history text
  generalize ((new protocol returnCol : WciWebQuery F).after history).isPolygon = flag at decoded
  simp only [decode, decoded] at accepted
  simp only [decodeValues, urlDecoded] at accepted
  split at accepted
  · cases accepted
  · rename_i final outcome
    obtain ⟨acceptedKeys, isFinal⟩ := Prod.mk.inj outcome
    have client := (clientParts_decodeKeys acceptedKeys).withFlag flag
    have closed := (preserved_decodeKeys (ClosedParts returnCol)
      (fun query decoder val holds decoded => holds.runDecoder query decoder val decoded)
      (closedParts_clean protocol returnCol) acceptedKeys).withFlag flag
    rw [isFinal] at client closed
    obtain ⟨written, rfl⟩ := Prod.mk.inj accepted
    obtain rfl := readText_of_wciReadQuery written
    obtain ⟨reftimes, readsReftime⟩ := closed.reftime
    obtain ⟨validtimes, readsValidtime⟩ := closed.validtime
    obtain ⟨levels, levelSelect⟩ := client.levelspec
    have noQuoteInterpolation := noQuote "point_interpolation" (by simp)
    have isPlace := client.place_eq noQuoteInterpolation
    have noQuotePlace : sqlQuote ∉ final.place := by
      rw [isPlace]
      exact closed.noQuote_placeOf noQuoteInterpolation
    have reads := reads_readText final
      (by rw [closed.columns]; exact readsColumns)
      (by
        rw [client.dataprovider]
        exact reads_sqlArray (by decide) (by decide)
          fun elem => noQuote_elements (noQuote "dataprovider" (by simp)))
      noQuotePlace readsReftime readsValidtime
      (by
        rw [client.parameter]
        exact reads_sqlArray (by decide) (by decide)
          fun elem => noQuote_elements (noQuote "parameter" (by simp)))
      (levelSelect.reads fun elem => noQuote_trimmedElements (noQuote "levelspec" (by simp)))
      closed.dataversion
    rw [← isPlace]
    exact ⟨reftimes, validtimes, levels, levelSelect, reads.literals_eq⟩

theorem eq_ok_of_toOption {ε α β : Type} {outcome : Except ε α × β} {value : α}
    (isSome : outcome.1.toOption = some value) : outcome = (.ok value, outcome.2) := by
  cases outcome with
  | mk exception state =>
      cases exception with
      | error what => cases isSome
      | ok other => rw [Option.some.inj isSome]

/-- A query of protocol 2 with two dataproviders. -/
def twoProviders : Bytes :=
  Bytes.str "lat=60;lon=10;dataprovider=a,b;levelspec=2,2,above ground;parameter=t"

/-- Decode a query with the functions on whole numbers. -/
def decodeWhole (protocol : ℤ) (text : Bytes) : Except Bytes Bytes × WciWebQuery ℚ :=
  ((new protocol (Bytes.str "*")).after []).decode text

theorem literals_decode_twoProviders :
    ∃ reftimes validtimes levels,
      LevelSelect 2 [Bytes.str "2", Bytes.str "2", Bytes.str "above ground"]
        (decodeWhole 2 twoProviders).2.levelspec.selectPart_ levels ∧
      literals sqlQuote .outside (decodeWhole 2 twoProviders).2.readText =
        some ([] ++ [Bytes.str "a", Bytes.str "b"] ++ [Bytes.str "nearest POINT(10 60)"] ++
          reftimes ++ validtimes ++ [Bytes.str "t"] ++ levels) := by
  have decoded : (decodeWhole 2 twoProviders).1.toOption =
        some (decodeWhole 2 twoProviders).2.readText ∧
      placeOf (UrlQuery.decode twoProviders false UrlQuery.new).2.params
        (decodeWhole 2 twoProviders).2 = Bytes.str "nearest POINT(10 60)" := by
    decide +kernel
  have values : (UrlQuery.decode twoProviders false UrlQuery.new).1 = none ∧
      elements (clientValue (UrlQuery.decode twoProviders false UrlQuery.new).2.params
        "dataprovider") = [Bytes.str "a", Bytes.str "b"] ∧
      elements (clientValue (UrlQuery.decode twoProviders false UrlQuery.new).2.params
        "parameter") = [Bytes.str "t"] ∧
      trimmedElements (clientValue (UrlQuery.decode twoProviders false UrlQuery.new).2.params
        "levelspec") = [Bytes.str "2", Bytes.str "2", Bytes.str "above ground"] := by
    decide +kernel
  obtain ⟨isSome, isPlace⟩ := decoded
  obtain ⟨isNone, providers, parameters, levelElements⟩ := values
  have accepted := eq_ok_of_toOption isSome
  have urlDecoded := Prod.mk.eta.symm.trans (congrArg (fun exception =>
    (exception, (UrlQuery.decode twoProviders false UrlQuery.new).2)) isNone)
  have noColumns : Reads sqlQuote (Bytes.str "*") [] := reads_of_not_mem (by decide)
  obtain ⟨reftimes, validtimes, levels, levelSelect, isLiterals⟩ :=
    literals_decode noColumns accepted urlDecoded (by decide +kernel)
  rw [providers, parameters, isPlace] at isLiterals
  rw [levelElements] at levelSelect
  exact ⟨reftimes, validtimes, levels, levelSelect, isLiterals⟩

/-- Under protocol 1 the levels of a specification are in no literal. -/
theorem not_literal_level :
    ∃ values,
      (decodeWhole 1 (Bytes.str "lat=60;lon=10;levelspec=2,2,above ground")).1.toOption.bind
          (literals sqlQuote .outside) = some values ∧
        ∀ value ∈ values, Bytes.chr '2' ∉ value := by
  refine ⟨[Bytes.str "nearest POINT(10 60)", Bytes.str "above ground", Bytes.str "exact"], ?_, ?_⟩
  · decide +kernel
  · decide

end WciWebQuery

end Wdb2ts
