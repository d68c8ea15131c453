import Wdb2ts.UrlQuery

/-!
# Encoding and decoding a query

What `escape` writes consists of letters, digits and percent signs, so the splitting of
`decode` takes the text of `encode` apart at the places where it was joined.
-/

namespace Wdb2ts

/-! ## Escaped bytes -/

/-- The bytes that `escape` writes. -/
def isPlain (byte : Byte) : Bool := isAlnum byte || decide (byte = Bytes.chr '%')

theorem ne_of_isPlain {byte other : Byte} (plain : isPlain byte = true)
    (notPlain : isPlain other = false) : byte ≠ other := by
  rintro rfl
  rw [plain] at notPlain
  contradiction

theorem val_hexDigit {number : ℕ} (small : number < 16) :
    (hexDigit number).val = if number < 10 then 48 + number else 87 + number := by
  simp only [hexDigit, Bytes.val_ofNat]
  split
  · omega
  · omega

theorem isAlnum_hexDigit {number : ℕ} (small : number < 16) :
    isAlnum (hexDigit number) = true := by
  have value := val_hexDigit small
  simp only [isAlnum, isDigit, Bool.or_eq_true, decide_eq_true_eq]
  split at value
  · omega
  · omega

theorem hexValue_hexDigit {number : ℕ} (small : number < 16) :
    hexValue (hexDigit number) = some number := by
  have value := val_hexDigit small
  simp only [hexValue]
  split at value
  · rw [if_pos (by omega), value]
    congr 1
    omega
  · rw [if_neg (by omega), if_neg (by omega), if_pos (by omega), value]
    congr 1
    omega

theorem isSpace_hexDigit {number : ℕ} (small : number < 16) :
    isSpace (hexDigit number) = false := by
  have value := val_hexDigit small
  simp only [isSpace, decide_eq_false_iff_not]
  split at value
  · omega
  · omega

theorem strtol_hexDigits {high low : ℕ} (highSmall : high < 16) (lowSmall : low < 16) :
    strtol [hexDigit high, hexDigit low] = (((high * 16 + low : ℕ) : ℤ), []) := by
  have notMinus : hexDigit high ≠ Bytes.chr '-' := by
    apply ne_of_isPlain
    · simp [isPlain, isAlnum_hexDigit highSmall]
    · rfl
  have notPlus : hexDigit high ≠ Bytes.chr '+' := by
    apply ne_of_isPlain
    · simp [isPlain, isAlnum_hexDigit highSmall]
    · rfl
  simp [strtol, isSpace_hexDigit highSmall, notMinus, notPlus, hexValue_hexDigit highSmall,
    hexValue_hexDigit lowSmall, hexNumber]

theorem cString_hexDigits {high low : ℕ} (highSmall : high < 16) (lowSmall : low < 16) :
    cString [hexDigit high, hexDigit low] = [hexDigit high, hexDigit low] := by
  have notZero : ∀ {number : ℕ}, number < 16 → hexDigit number ≠ Bytes.chr (Char.ofNat 0) := by
    intro number small
    apply ne_of_isPlain
    · simp [isPlain, isAlnum_hexDigit small]
    · rfl
  simp [cString, notZero highSmall, notZero lowSmall]

theorem charOfLong_val (byte : Byte) :
    charOfLong ((byte.val / 16 * 16 + byte.val % 16 : ℕ) : ℤ) = byte := by
  apply Fin.ext
  simp only [charOfLong, Bytes.val_ofNat]
  omega

namespace UrlQuery

theorem unescape_of_ne {byte : Byte} (notPercent : byte ≠ Bytes.chr '%') (rest : Bytes) :
    unescape (byte :: rest) = (unescape rest).map fun result => byte :: result := by
  rw [unescape.eq_def]
  simp [notPercent]

theorem unescape_hexDigits {high low : ℕ} (highSmall : high < 16) (lowSmall : low < 16)
    (rest : Bytes) :
    unescape (Bytes.chr '%' :: hexDigit high :: hexDigit low :: rest) =
      (unescape rest).map fun result => charOfLong (high * 16 + low : ℕ) :: result := by
  simp [unescape, cString_hexDigits highSmall lowSmall, strtol_hexDigits highSmall lowSmall]

/-- A text of bytes below 128. -/
def IsAscii (text : Bytes) : Prop := ∀ byte ∈ text, byte.val < 128

/-- What `escapeByte` writes is plain, and `unescape` reads the byte from it. -/
theorem escapeByte_spec {byte : Byte} (ascii : byte.val < 128) :
    ∃ escaped, escapeByte byte = some escaped ∧ (∀ other ∈ escaped, isPlain other = true) ∧
      ∀ rest, unescape (escaped ++ rest) =
        (unescape rest).map fun result => byte :: result := by
  have notHigh : ¬128 ≤ byte.val := by omega
  cases alnum : isAlnum byte with
  | true =>
      have notPercent : byte ≠ Bytes.chr '%' := by
        rintro rfl
        cases alnum
      refine ⟨[byte], by simp [escapeByte, notHigh, alnum], ?_, ?_⟩
      · intro other member
        rw [List.mem_singleton.mp member]
        simp [isPlain, alnum]
      · intro rest
        exact unescape_of_ne notPercent rest
  | false =>
      have highSmall : byte.val / 16 < 16 := by omega
      have lowSmall : byte.val % 16 < 16 := by omega
      refine ⟨[Bytes.chr '%', hexDigit (byte.val / 16), hexDigit (byte.val % 16)],
        by simp [escapeByte, notHigh, alnum], ?_, ?_⟩
      · intro other member
        rcases List.mem_cons.mp member with rfl | member
        · rfl
        · rcases List.mem_cons.mp member with rfl | member
          · simp [isPlain, isAlnum_hexDigit highSmall]
          · rw [List.mem_singleton.mp member]
            simp [isPlain, isAlnum_hexDigit lowSmall]
      · intro rest
        have read := unescape_hexDigits highSmall lowSmall rest
        rw [charOfLong_val] at read
        exact read

/-- What `escape` writes is plain, and `unescape` reads the text from it. -/
theorem escape_spec {text : Bytes} (ascii : IsAscii text) :
    ∃ escaped, escape text = some escaped ∧ (∀ byte ∈ escaped, isPlain byte = true) ∧
      unescape escaped = .ok text := by
  induction text with
  | nil => exact ⟨[], rfl, by simp, rfl⟩
  | cons byte rest ih =>
      have asciiRest : IsAscii rest := fun other member =>
        ascii other (List.mem_cons_of_mem byte member)
      rcases escapeByte_spec (ascii byte List.mem_cons_self) with
        ⟨escaped, escapes, plain, read⟩
      rcases ih asciiRest with ⟨result, escapesRest, plainRest, readRest⟩
      refine ⟨escaped ++ result, by simp [escape, escapes, escapesRest], ?_, ?_⟩
      · intro other member
        rcases List.mem_append.mp member with first | second
        · exact plain other first
        · exact plainRest other second
      · rw [read, readRest]
        rfl

/-- `escape` is only defined for bytes below 128. -/
theorem isAscii_of_escape {text escaped : Bytes} (escapes : escape text = some escaped) :
    IsAscii text := by
  induction text generalizing escaped with
  | nil => simp [IsAscii]
  | cons byte rest ih =>
      simp only [escape, Option.bind_eq_bind, Option.bind_eq_some_iff] at escapes
      rcases escapes with ⟨first, escapesByte, result, escapesRest, _⟩
      intro other member
      rcases List.mem_cons.mp member with rfl | member
      · by_contra high
        simp [escapeByte, Nat.not_lt.mp high] at escapesByte
      · exact ih escapesRest other member

/-! ## Encoded parameters -/

/-- The bytes of an encoded parameter. -/
def isParamByte (byte : Byte) : Bool := isPlain byte || decide (byte = Bytes.chr '=')

theorem ne_of_isParamByte {byte other : Byte} (inParam : isParamByte byte = true)
    (notInParam : isParamByte other = false) : byte ≠ other := by
  rintro rfl
  rw [inParam] at notInParam
  contradiction

theorem not_blank_of_isParamByte {byte : Byte} (inParam : isParamByte byte = true) :
    miutil.blanks.contains byte = false := by
  cases blank : miutil.blanks.contains byte with
  | false => rfl
  | true =>
      have isBlank : byte ∈ miutil.blanks := List.contains_iff_mem.mp blank
      have notInParam : ∀ other ∈ miutil.blanks, isParamByte other = false := by
        intro other member
        simp only [miutil.blanks, List.mem_cons, List.not_mem_nil, or_false] at member
        rcases member with rfl | rfl | rfl | rfl
        all_goals rfl
      exact absurd rfl (ne_of_isParamByte inParam (notInParam byte isBlank))

theorem isInert_of_isParamByte {text : Bytes} (inParam : ∀ byte ∈ text, isParamByte byte = true) :
    miutil.IsInert (Bytes.chr ';') (Bytes.chr '"') text := by
  intro byte member
  have here := inParam byte member
  exact ⟨ne_of_isParamByte here rfl, ne_of_isParamByte here rfl, not_blank_of_isParamByte here⟩

theorem isInert_of_isPlain {text : Bytes} (plain : ∀ byte ∈ text, isPlain byte = true) :
    miutil.IsInert (Bytes.chr '=') (Bytes.chr '"') text := by
  intro byte member
  have here := plain byte member
  refine ⟨ne_of_isPlain here rfl, ne_of_isPlain here rfl, ?_⟩
  apply not_blank_of_isParamByte
  simp [isParamByte, here]

/-- `decode` reads a parameter from what `encode` writes for it. -/
theorem encodeParam_spec {param : Bytes × Bytes} (asciiKey : IsAscii param.1)
    (asciiVal : IsAscii param.2) :
    ∃ text, encodeParam param = some text ∧ text ≠ [] ∧
      (∀ byte ∈ text, isParamByte byte = true) ∧ ∀ query,
        decodeParam text query =
          .ok { query with params := query.params.insert param.1 param.2 } := by
  rcases escape_spec asciiKey with ⟨key, escapesKey, plainKey, readKey⟩
  rcases escape_spec asciiVal with ⟨val, escapesVal, plainVal, readVal⟩
  refine ⟨key ++ Bytes.chr '=' :: val, by simp [encodeParam, escapesKey, escapesVal],
    by simp, ?_, ?_⟩
  · intro byte member
    rcases List.mem_append.mp member with inKey | member
    · simp [isParamByte, plainKey byte inKey]
    · rcases List.mem_cons.mp member with rfl | inVal
      · rfl
      · simp [isParamByte, plainVal byte inVal]
  · intro query
    have inert : ∀ elem ∈ [key, val], miutil.IsInert (Bytes.chr '=') (Bytes.chr '"') elem := by
      intro elem member
      rcases List.mem_cons.mp member with rfl | member
      · exact isInert_of_isPlain plainKey
      · rw [List.mem_singleton.mp member]
        exact isInert_of_isPlain plainVal
    have parts := miutil.splitstr_join (by decide) inert
    rw [List.flatMap_singleton] at parts
    simp [decodeParam, parts, readKey, readVal, bind, Except.bind]

theorem encodeRest_spec {params : List (Bytes × Bytes)}
    (ascii : ∀ param ∈ params, IsAscii param.1 ∧ IsAscii param.2) (sep : Byte) :
    ∃ texts, encodeRest (some sep) params = some (texts.flatMap fun text => sep :: text) ∧
      texts.length = params.length ∧ (∀ text ∈ texts, ∀ byte ∈ text, isParamByte byte = true) ∧
      ∀ query, decodeParams texts query =
        (none, { query with
          params := params.foldl (fun map param => map.insert param.1 param.2) query.params }) := by
  induction params with
  | nil => exact ⟨[], rfl, rfl, by simp, fun _ => rfl⟩
  | cons param rest ih =>
      have asciiParam := ascii param List.mem_cons_self
      rcases encodeParam_spec asciiParam.1 asciiParam.2 with ⟨text, encodes, _, inParam, reads⟩
      rcases ih fun other member => ascii other (List.mem_cons_of_mem param member) with
        ⟨texts, encodesRest, sameLength, inParams, readsRest⟩
      refine ⟨text :: texts, by simp [encodeRest, encodes, encodesRest], by simp [sameLength],
        ?_, ?_⟩
      · intro other member
        rcases List.mem_cons.mp member with rfl | member
        · exact inParam
        · exact inParams other member
      · intro query
        rw [decodeParams, reads query]
        exact readsRest _

/-! ## The text of a query -/

theorem getParamSeparator_of_isParamByte {text : Bytes}
    (inParam : ∀ byte ∈ text, isParamByte byte = true) : getParamSeparator text = -1 := by
  have absent : (text.find? fun byte =>
      decide (byte = Bytes.chr ';' ∨ byte = Bytes.chr '&')) = none := by
    rw [List.find?_eq_none]
    intro byte member
    have here := inParam byte member
    have notSemicolon : byte ≠ Bytes.chr ';' := ne_of_isParamByte here rfl
    have notAmpersand : byte ≠ Bytes.chr '&' := ne_of_isParamByte here rfl
    simp [notSemicolon, notAmpersand]
  rw [getParamSeparator, absent]

theorem getParamSeparator_append {text : Bytes}
    (inParam : ∀ byte ∈ text, isParamByte byte = true) (rest : Bytes) :
    getParamSeparator (text ++ Bytes.chr ';' :: rest) = 59 := by
  induction text with
  | nil => rfl
  | cons byte others ih =>
      have here := inParam byte List.mem_cons_self
      have notSemicolon : byte ≠ Bytes.chr ';' := ne_of_isParamByte here rfl
      have notAmpersand : byte ≠ Bytes.chr '&' := ne_of_isParamByte here rfl
      have others := ih fun other member => inParam other (List.mem_cons_of_mem byte member)
      rw [getParamSeparator] at others ⊢
      simpa [notSemicolon, notAmpersand] using others

/-- The splitting of `decode` finds the encoded parameters. -/
theorem paramList_join {text : Bytes} {texts : List Bytes}
    (inParams : ∀ other ∈ text :: texts, ∀ byte ∈ other, isParamByte byte = true) :
    let urlQuery := text ++ texts.flatMap fun other => Bytes.chr ';' :: other
    paramList (getParamSeparator urlQuery) urlQuery = text :: texts := by
  have inParam := inParams text List.mem_cons_self
  cases texts with
  | nil =>
      simp only [List.flatMap_nil, List.append_nil]
      rw [getParamSeparator_of_isParamByte inParam]
      rfl
  | cons next others =>
      have inert : ∀ elem ∈ text :: next :: others,
          miutil.IsInert (Bytes.chr ';') (Bytes.chr '"') elem :=
        fun elem member => isInert_of_isParamByte (inParams elem member)
      have parts := miutil.splitstr_join (by decide) inert
      simp only [List.flatMap_cons, List.cons_append] at parts ⊢
      rw [getParamSeparator_append inParam]
      exact parts

/-- Decoding joined texts decodes them one after the other. -/
theorem decodeQuery_join {text : Bytes} {texts : List Bytes} (notEmpty : text ≠ [])
    (inParams : ∀ other ∈ text :: texts, ∀ byte ∈ other, isParamByte byte = true)
    (query : UrlQuery) :
    let urlQuery := text ++ texts.flatMap fun other => Bytes.chr ';' :: other
    decodeQuery urlQuery query =
      decodeParams (text :: texts) { query with seperator := getParamSeparator urlQuery } := by
  have parts := paramList_join inParams
  have someText : (text ++ texts.flatMap fun other => Bytes.chr ';' :: other).isEmpty = false := by
    simp [notEmpty]
  simp only [decodeQuery, someText, Bool.false_eq_true, if_false] at parts ⊢
  rw [parts]

/-! ## The round trip -/

/-- The path in front of a query is the text before the first `?`, so it has none. -/
structure UrlPath where
  text : Bytes
  noQuery : Bytes.chr '?' ∉ text

theorem splitPath_append (path : UrlPath) (urlQuery : Bytes) :
    (splitPath (path.text ++ Bytes.chr '?' :: urlQuery)).2 = urlQuery := by
  have found := findByte_append path.noQuery urlQuery
  simp [splitPath, found]

/-- A new object that decodes the encoded text has the parameters. -/
def RoundTrips (query : UrlQuery) (path : UrlPath) : Prop :=
  ∃ text decoded, query.encode path.text = some text ∧
    decode text true new = (none, decoded) ∧ decoded.params = query.params

/-- All keys and values are bytes below 128, and the separator is only written when it has a
value. -/
def IsDefined (query : UrlQuery) : Prop :=
  (∀ param ∈ query.params.entries, IsAscii param.1 ∧ IsAscii param.2) ∧
    (query.seperator ≤ 0 ∨ query.params.entries.length ≤ 1)

theorem roundTrips_of_isDefined {query : UrlQuery} (isDefined : query.IsDefined)
    (path : UrlPath) : RoundTrips query path := by
  have rebuilt := query.params.ofList_entries
  rw [SortedMap.ofList] at rebuilt
  cases entries : query.params.entries with
  | nil =>
      have noParams := findByte_eq_none path.noQuery
      refine ⟨path.text, { new with path := path.text }, by simp [encode, entries], ?_, ?_⟩
      · simp [decode, splitPath, noParams, decodeQuery]
      · rw [entries] at rebuilt
        exact rebuilt
  | cons param rest =>
      rcases isDefined with ⟨ascii, separator⟩
      rw [entries] at ascii separator rebuilt
      have asciiParam := ascii param List.mem_cons_self
      rcases encodeParam_spec asciiParam.1 asciiParam.2 with ⟨text, encodes, notEmpty, inParam, reads⟩
      rcases encodeRest_spec (fun other member => ascii other (List.mem_cons_of_mem param member))
        (Bytes.chr ';') with ⟨texts, encodesRest, sameLength, inParams, readsRest⟩
      have encodesOthers : encodeRest query.encodeSep rest =
          some (texts.flatMap fun other => Bytes.chr ';' :: other) := by
        rcases separator with notSet | few
        · rw [encodeSep, if_pos notSet]
          exact encodesRest
        · have noRest : rest = [] := by
            rw [List.length_cons] at few
            exact List.length_eq_zero_iff.mp (by omega)
          rw [noRest, encodeRest] at encodesRest ⊢
          exact encodesRest
      have allParams : ∀ other ∈ text :: texts, ∀ byte ∈ other, isParamByte byte = true := by
        intro other member
        rcases List.mem_cons.mp member with rfl | member
        · exact inParam
        · exact inParams other member
      have reading : ∀ start : UrlQuery, start.params = ∅ →
          ∃ decoded, decodeQuery (text ++ texts.flatMap fun other => Bytes.chr ';' :: other)
            start = (none, decoded) ∧ decoded.params = query.params := by
        intro start noParams
        rw [decodeQuery_join notEmpty allParams, decodeParams, reads]
        refine ⟨_, readsRest _, ?_⟩
        rw [noParams]
        exact rebuilt
      rcases reading { new with path := (splitPath (path.text ++ Bytes.chr '?' ::
        (text ++ texts.flatMap fun other => Bytes.chr ';' :: other))).1 } rfl with
        ⟨decoded, decodes, sameParams⟩
      refine ⟨path.text ++ Bytes.chr '?' ::
        (text ++ texts.flatMap fun other => Bytes.chr ';' :: other), decoded, ?_, ?_,
        sameParams⟩
      · simp only [encode, entries, encodes, encodesOthers, Option.bind_eq_bind,
          Option.bind_some]
      · simp only [decode, if_true, splitPath_append]
        exact decodes

theorem isAscii_of_encodeParam {param : Bytes × Bytes} {text : Bytes}
    (encodes : encodeParam param = some text) : IsAscii param.1 ∧ IsAscii param.2 := by
  simp only [encodeParam, Option.bind_eq_bind, Option.bind_eq_some_iff] at encodes
  rcases encodes with ⟨key, escapesKey, val, escapesVal, _⟩
  exact ⟨isAscii_of_escape escapesKey, isAscii_of_escape escapesVal⟩

theorem isAscii_of_encodeRest {sep : Option Byte} {params : List (Bytes × Bytes)} {text : Bytes}
    (encodes : encodeRest sep params = some text) :
    (∀ param ∈ params, IsAscii param.1 ∧ IsAscii param.2) ∧ (sep.isSome = true ∨ params = []) := by
  induction params generalizing text with
  | nil => simp
  | cons param rest ih =>
      simp only [encodeRest, Option.bind_eq_bind, Option.bind_eq_some_iff] at encodes
      rcases encodes with ⟨byte, isSep, first, encodesParam, others, encodesRest, _⟩
      constructor
      · intro other member
        rcases List.mem_cons.mp member with rfl | member
        · exact isAscii_of_encodeParam encodesParam
        · exact (ih encodesRest).1 other member
      · simp [isSep]

theorem isDefined_of_encode {query : UrlQuery} {path text : Bytes}
    (encodes : query.encode path = some text) : query.IsDefined := by
  cases entries : query.params.entries with
  | nil => simp [IsDefined, entries]
  | cons param rest =>
      simp only [encode, entries, Option.bind_eq_bind, Option.bind_eq_some_iff] at encodes
      rcases encodes with ⟨first, encodesParam, others, encodesRest, _⟩
      rcases isAscii_of_encodeRest encodesRest with ⟨asciiRest, hasSep⟩
      constructor
      · rw [entries]
        intro other member
        rcases List.mem_cons.mp member with rfl | member
        · exact isAscii_of_encodeParam encodesParam
        · exact asciiRest other member
      · rcases hasSep with isSome | noRest
        · left
          by_contra isSet
          simp [encodeSep, isSet] at isSome
        · right
          simp [entries, noRest]

/-- A query survives encoding and decoding exactly when its encoding is defined. -/
theorem roundTrips_iff (query : UrlQuery) (path : UrlPath) :
    RoundTrips query path ↔ query.IsDefined := by
  constructor
  · rintro ⟨text, _, encodes, _⟩
    exact isDefined_of_encode encodes
  · intro isDefined
    exact roundTrips_of_isDefined isDefined path

/-- A query with the letter `å` of Latin-1 as the value has no defined encoding. -/
theorem not_roundTrips_highByte :
    ¬RoundTrips ⟨SortedMap.ofList [(Bytes.str "place", [Bytes.ofNat 229])], -1, []⟩
      ⟨Bytes.str "/my/path", by decide⟩ := by
  rintro ⟨text, _, encodes, _⟩
  have undefined : encode ⟨SortedMap.ofList [(Bytes.str "place", [Bytes.ofNat 229])], -1, []⟩
      (Bytes.str "/my/path") = none := by decide
  rw [undefined] at encodes
  contradiction

end UrlQuery

end Wdb2ts
