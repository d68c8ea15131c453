import Wdb2ts.WciWebQuery
import Wdb2ts.Lib.Runs

/-!
# Queries decoded one after the other

Every decoder is reset before a query is decoded, so nothing of the earlier queries is left
but the flag `isPolygon`, which is only ever set.
-/

namespace Wdb2ts

/-! ## Resetting the decoders -/

theorem UrlParamLevelSpec.protocol_decode (toDecode : Bytes) (param : UrlParamLevelSpec) :
    (param.decode toDecode).2.protocol = param.protocol := by
  simp only [decode, decodeProtocol1, decodeProtocol2]
  repeat' split
  all_goals rfl

theorem UrlParamTimeSpec.protocol_select (isProtocol1 : Bool) (values : TimeValues)
    (param : UrlParamTimeSpec) :
    (select isProtocol1 values param).2.protocol = param.protocol := by
  simp only [select]
  repeat' split
  all_goals rfl

theorem UrlParamTimeSpec.protocol_decodeTimes (F : Type) [TextFunctions F] (isProtocol1 : Bool)
    (toDecode : Bytes) (param : UrlParamTimeSpec) :
    (decodeTimes F isProtocol1 toDecode param).2.protocol = param.protocol := by
  simp only [decodeTimes, storeTimes]
  repeat' split
  all_goals first
    | rfl
    | apply protocol_select

theorem UrlParamTimeSpec.protocol_decode (F : Type) [TextFunctions F] (toDecode : Bytes)
    (param : UrlParamTimeSpec) :
    (param.decode F toDecode).2.protocol = param.protocol := by
  simp only [decode, decodeProtocol]
  repeat' split
  all_goals first
    | rfl
    | apply protocol_decodeTimes

theorem UrlParamInteger.clean_decode (toDecode : Bytes) (param : UrlParamInteger) :
    (param.decode toDecode).2.clean = param.clean := by
  simp only [decode]
  repeat' split
  all_goals rfl

theorem UrlParamTimeSpec.clean_decode (F : Type) [TextFunctions F] (toDecode : Bytes)
    (param : UrlParamTimeSpec) : (param.decode F toDecode).2.clean = param.clean := by
  simp only [clean, protocol_decode]

theorem UrlParamLevelSpec.clean_decode (toDecode : Bytes) (param : UrlParamLevelSpec) :
    (param.decode toDecode).2.clean = param.clean := by
  simp only [clean, protocol_decode]

theorem UrlParamPolygon.clean_decode (F : Type) [TextFunctions F] (toDecode : Bytes)
    (param : UrlParamPolygon) : (param.decode F toDecode).2.clean = param.clean := by
  simp only [decode]
  split
  · rfl
  · rfl

namespace WciWebQuery

variable {F : Type} [TextFunctions F]

/-- Set the flag of polygons as well. -/
def withFlag (query : WciWebQuery F) (flag : Bool) : WciWebQuery F :=
  { query with isPolygon := query.isPolygon || flag }

/-- After a decoder ran, a reset gives what it gave before, up to the flag. -/
theorem clean_runDecoder (query : WciWebQuery F) (decoder : Decoder) (val : Bytes) :
    (query.runDecoder decoder val).2.clean =
      { query.clean with isPolygon := (query.runDecoder decoder val).2.isPolygon } := by
  cases decoder with
  | reftime => simp only [runDecoder, clean, UrlParamTimeSpec.clean_decode]
  | validtime => simp only [runDecoder, clean, UrlParamTimeSpec.clean_decode]
  | levelspec => simp only [runDecoder, clean, UrlParamLevelSpec.clean_decode]
  | dataversion => simp only [runDecoder, clean, UrlParamInteger.clean_decode]
  | polygon => simp only [runDecoder, clean, UrlParamPolygon.clean_decode]
  | _ => rfl

theorem clean_decodeKey (query : WciWebQuery F) (key val : Bytes) :
    (query.decodeKey key val).2.clean =
      { query.clean with isPolygon := (query.decodeKey key val).2.isPolygon } := by
  simp only [decodeKey]
  split
  · rfl
  · split
    · rfl
    · rename_i decoder _
      split
      · rfl
      · have cleaned := query.clean_runDecoder decoder val
        split
        · rename_i decoded
          rw [decoded] at cleaned
          exact cleaned
        · rename_i decoded
          rw [decoded] at cleaned
          exact cleaned

theorem clean_decodeKeys (params : List (Bytes × Bytes)) (query : WciWebQuery F) :
    (decodeKeys params query).2.clean =
      { query.clean with isPolygon := (decodeKeys params query).2.isPolygon } := by
  induction params generalizing query with
  | nil => rfl
  | cons param rest ih =>
      have cleaned := query.clean_decodeKey param.1 param.2
      simp only [decodeKeys]
      split
      · rename_i decoded
        rw [decoded] at cleaned
        exact cleaned
      · rename_i next decoded
        rw [decoded] at cleaned
        rw [ih next, cleaned]

/-- Decoding depends on nothing that a reset does not keep. -/
theorem clean_decodeValues (query : WciWebQuery F) (text : Bytes) :
    (query.decodeValues text).2.clean =
      { query.clean with isPolygon := (query.decodeValues text).2.isPolygon } := by
  simp only [decodeValues]
  split
  · rfl
  · exact clean_decodeKeys _ query.clean

/-! ## The flag -/

theorem runDecoder_withFlag (query : WciWebQuery F) (flag : Bool) (decoder : Decoder)
    (val : Bytes) :
    (query.withFlag flag).runDecoder decoder val =
      ((query.runDecoder decoder val).1, (query.runDecoder decoder val).2.withFlag flag) := by
  cases decoder with
  | polygon => simp only [runDecoder, withFlag, Bool.or_assoc]
  | _ => rfl

theorem decodeKey_withFlag (query : WciWebQuery F) (flag : Bool) (key val : Bytes) :
    (query.withFlag flag).decodeKey key val =
      ((query.decodeKey key val).1, (query.decodeKey key val).2.withFlag flag) := by
  simp only [decodeKey]
  split
  · rfl
  · split
    · rfl
    · rename_i decoder _
      split
      · rfl
      · rw [runDecoder_withFlag]
        cases query.runDecoder decoder val with
        | mk exception next =>
            cases exception with
            | none => rfl
            | some what => rfl

theorem decodeKeys_withFlag (params : List (Bytes × Bytes)) (query : WciWebQuery F)
    (flag : Bool) :
    decodeKeys params (query.withFlag flag) =
      ((decodeKeys params query).1, (decodeKeys params query).2.withFlag flag) := by
  induction params generalizing query with
  | nil => rfl
  | cons param rest ih =>
      simp only [decodeKeys]
      rw [decodeKey_withFlag]
      cases query.decodeKey param.1 param.2 with
      | mk exception next =>
          cases exception with
          | none => exact ih next
          | some what => rfl

theorem decodeValues_withFlag (query : WciWebQuery F) (flag : Bool) (text : Bytes) :
    (query.withFlag flag).decodeValues text =
      ((query.decodeValues text).1, (query.decodeValues text).2.withFlag flag) := by
  simp only [decodeValues]
  split
  · rfl
  · exact decodeKeys_withFlag _ query.clean flag

theorem decode_snd (query : WciWebQuery F) (text : Bytes) :
    (query.decode text).2 = (query.decodeValues text).2 := by
  simp only [decode]
  split
  · rename_i decoded
    rw [decoded]
  · rename_i decoded
    rw [decoded]

/-- The object after some queries, each of which is decoded or ends in an exception. -/
def after (query : WciWebQuery F) (history : List Bytes) : WciWebQuery F :=
  Runs.run (fun query text => (query.decode text).2) query history

theorem clean_after (query : WciWebQuery F) (history : List Bytes) :
    (query.after history).clean =
      { query.clean with isPolygon := (query.after history).isPolygon } := by
  induction history generalizing query with
  | nil => rfl
  | cons text rest ih =>
      have cleaned := query.clean_decodeValues text
      have later := ih (query.decode text).2
      rw [decode_snd, cleaned] at later
      simp only [after, Runs.run_cons, decode_snd] at later ⊢
      exact later

section Fresh

variable (F) (protocol : ℤ) (returnCol : Bytes)

/-- Does a query text decode a polygon, before any exception? -/
def decodesPolygon (text : Bytes) : Bool :=
  ((new protocol returnCol : WciWebQuery F).decodeValues text).2.isPolygon

/-- Do all keys and values of a query text decode? -/
def decodesAll (text : Bytes) : Bool :=
  ((new protocol returnCol : WciWebQuery F).decodeValues text).1.isNone

variable {F protocol returnCol}

variable (F) (protocol) (returnCol) in
/-- Earlier queries only leave the flag. -/
theorem decodeValues_after (history : List Bytes) (text : Bytes) :
    ((new protocol returnCol : WciWebQuery F).after history).decodeValues text =
      (((new protocol returnCol : WciWebQuery F).decodeValues text).1,
        ((new protocol returnCol : WciWebQuery F).decodeValues text).2.withFlag
          ((new protocol returnCol : WciWebQuery F).after history).isPolygon) := by
  have flagged := decodeValues_withFlag (new protocol returnCol : WciWebQuery F)
    ((new protocol returnCol : WciWebQuery F).after history).isPolygon text
  have cleaned := clean_after (new protocol returnCol : WciWebQuery F) history
  rw [← flagged]
  simp only [decodeValues, cleaned]
  rfl

theorem isPolygon_after (history : List Bytes) :
    ((new protocol returnCol : WciWebQuery F).after history).isPolygon =
      history.any (decodesPolygon F protocol returnCol) := by
  induction history using List.reverseRecOn with
  | nil => rfl
  | append_singleton earlier text ih =>
      have decoded := decodeValues_after F protocol returnCol earlier text
      simp only [after, Runs.run_append, Runs.run_cons, Runs.run_nil] at decoded ih ⊢
      rw [decode_snd, decoded, List.any_append, ← ih, List.any_cons, List.any_nil, Bool.or_false]
      exact Bool.or_comm _ _

/-! ## The text of a query without a polygon -/

/-- There is no text of a polygon until one is decoded. -/
def PolygonUnset (query : WciWebQuery F) : Prop :=
  query.isPolygon = true ∨ query.polygon.selectPart_ = []

theorem PolygonUnset.runDecoder {query : WciWebQuery F} (unset : PolygonUnset query)
    (decoder : Decoder) (val : Bytes) : PolygonUnset (query.runDecoder decoder val).2 := by
  cases decoder with
  | polygon =>
      simp only [PolygonUnset, WciWebQuery.runDecoder, UrlParamPolygon.decode]
      split
      · simpa [PolygonUnset] using unset
      · simp
  | _ => exact unset

theorem PolygonUnset.decodeKey {query : WciWebQuery F} (unset : PolygonUnset query)
    (key val : Bytes) : PolygonUnset (query.decodeKey key val).2 := by
  simp only [WciWebQuery.decodeKey]
  split
  · exact unset
  · split
    · exact unset
    · rename_i decoder _
      have decoded := unset.runDecoder decoder val
      split
      · exact unset
      · split
        · rename_i equal
          rw [equal] at decoded
          exact decoded
        · rename_i equal
          rw [equal] at decoded
          exact decoded

theorem PolygonUnset.decodeKeys {query : WciWebQuery F} (unset : PolygonUnset query)
    (params : List (Bytes × Bytes)) : PolygonUnset (decodeKeys params query).2 := by
  induction params generalizing query with
  | nil => exact unset
  | cons param rest ih =>
      have decoded := unset.decodeKey param.1 param.2
      simp only [WciWebQuery.decodeKeys]
      split
      · rename_i equal
        rw [equal] at decoded
        exact decoded
      · rename_i equal
        rw [equal] at decoded
        exact ih decoded

variable (F) (protocol) (returnCol) in
theorem polygonUnset_decodeValues (text : Bytes) :
    PolygonUnset ((new protocol returnCol : WciWebQuery F).decodeValues text).2 := by
  have start : PolygonUnset (new protocol returnCol : WciWebQuery F).clean := Or.inr rfl
  simp only [decodeValues]
  split
  · exact start
  · exact start.decodeKeys _

/-- Texts with places of different lengths are different. -/
theorem length_place_of_readText {query other : WciWebQuery F}
    (equal : query.readText = other.readText)
    (sameParts : { query with isPolygon := other.isPolygon } = other) :
    query.place.length = other.place.length := by
  have sameLength := congrArg List.length equal
  rw [← sameParts] at sameLength ⊢
  simp only [readText, argument, quoted, List.length_append, List.length_cons] at sameLength ⊢
  omega

/-- The flag of an earlier polygon changes the outcome of every other query. -/
theorem wciReadQuery_withFlag {query : WciWebQuery F} (noPolygon : query.isPolygon = false)
    (unset : PolygonUnset query) :
    (query.withFlag true).wciReadQuery.toOption ≠ query.wciReadQuery.toOption := by
  have noText : query.polygon.selectPart_ = [] := by
    rcases unset with isPolygon | noText
    · rw [noPolygon] at isPolygon
      contradiction
    · exact noText
  have flagged : (query.withFlag true).isPolygon = true := Bool.or_true _
  have emptyPlace : (query.withFlag true).place = [] := by
    rw [place, flagged, if_pos rfl]
    exact noText
  have somePlace : query.place ≠ [] := by
    simp [place, noPolygon, Bytes.str]
  intro equal
  rw [wciReadQuery, flagged] at equal
  rw [wciReadQuery, noPolygon] at equal
  simp only [Bool.not_true, Bool.false_and, Bool.false_eq_true, if_false, Bool.not_false,
    Bool.true_and] at equal
  split at equal
  · cases equal
  · have sameText : query.readText = (query.withFlag true).readText :=
      (Option.some.inj equal).symm
    have sameLength := length_place_of_readText sameText (by simp [withFlag])
    rw [emptyPlace, List.length_nil, List.length_eq_zero_iff] at sameLength
    exact somePlace sameLength

/-- The outcome of a query does not depend on earlier ones exactly when none of them decoded a
polygon, or the query has an error or a polygon of its own. -/
theorem decode_after_iff (history : List Bytes) (text : Bytes) :
    (((new protocol returnCol : WciWebQuery F).after history).decode text).1.toOption =
        ((new protocol returnCol : WciWebQuery F).decode text).1.toOption ↔
      (∀ earlier ∈ history, decodesPolygon F protocol returnCol earlier = false) ∨
        decodesAll F protocol returnCol text = false ∨
        decodesPolygon F protocol returnCol text = true := by
  have decoded := decodeValues_after F protocol returnCol history text
  have unset := polygonUnset_decodeValues F protocol returnCol text
  rw [isPolygon_after] at decoded
  have isAny : history.any (decodesPolygon F protocol returnCol) = false ↔
      ∀ earlier ∈ history, decodesPolygon F protocol returnCol earlier = false := by
    simp
  rw [← isAny]
  generalize history.any (decodesPolygon F protocol returnCol) = flag at decoded ⊢
  simp only [decode, decodesAll, decodesPolygon, decoded]
  cases outcome : (new protocol returnCol : WciWebQuery F).decodeValues text with
  | mk exception query =>
      rw [outcome] at unset
      cases exception with
      | some what => simp [Except.toOption]
      | none =>
          cases flag with
          | false =>
              have same : query.withFlag false = query := by simp [withFlag]
              simp [same]
          | true =>
              cases isPolygon : query.isPolygon with
              | true =>
                  have same : query.withFlag true = query := by simp [withFlag, ← isPolygon]
                  simp [same]
              | false =>
                  have different := wciReadQuery_withFlag isPolygon unset
                  simp [different]

end Fresh

/-- After a query with a polygon, a query with a point is answered for an empty polygon. -/
theorem not_decode_after_polygon :
    (((new 1 (Bytes.str "*") : WciWebQuery ℚ).after
        [Bytes.str "polygon=10 60,11 60,11 61"]).decode (Bytes.str "lat=60;lon=10")).1.toOption ≠
      ((new 1 (Bytes.str "*") : WciWebQuery ℚ).decode (Bytes.str "lat=60;lon=10")).1.toOption := by
  decide +kernel

end WciWebQuery

end Wdb2ts
