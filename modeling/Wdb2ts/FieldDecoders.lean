import Wdb2ts.DecodedFields
import Wdb2ts.NearestLand

/-!
# The two tables of parameters

`decodePData` stores the values of a result by one table from parameters to members, and
`SetPDataHelper` stores the averages near the coast by another one.  The fields that both assign
are compared here for one value and a pair of times.
-/

namespace Wdb2ts

variable {F : Type}

namespace SetPDataHelper

/-- `SetPDataHelper::set`, after `init` with the name of a parameter. -/
def set (param : String) (data : PData F) (value : F) : PData F :=
  match init param with
  | none => data
  | some member => data.set member value

end SetPDataHelper

namespace DecodePData

/-- The member that a target stores a value in. -/
def Target.member : Target → PData.Member
  | .cell member => member
  | .constantField member _ => member

/-- The parameters that the two tables do not agree about. -/
def driftedAliases : List String :=
  ["PRECIP.INTENSITY", "significantSwellWaveHeight", "meanSwellWavePeriode",
    "meanSwellWaveDirection", "peakSwellWavePeriode", "peakSwellWaveDirection", "T.DEWPOINT",
    "seaTotalSwellWaveHeight", "seaMeanSwellWavePeriode", "seaMeanSwellWaveDirection",
    "seaPeakSwellWavePeriode", "seaPeakSwellWaveDirection"]

/-- The parameters that are stored under another name of the provider. -/
def renamedAliases : List String := ["MODEL.TOPOGRAPHY", "TOPOGRAPHY"]

/-- The parameters that are stored at the time of the constant fields. -/
def movedAliases : List String := ["seaBottomTopography", "seaIcePresence"]

/-! ## The tables -/

section Tables

/-- The suffix to the name of the provider of a constant field. -/
def constantSuffix (paramAlias : String) : Option String :=
  match aliases.lookup paramAlias with
  | some (.constantField _ suffix) => some suffix
  | _ => none

/-- The parameters of either table. -/
def knownAliases : List String := aliases.map Prod.fst ++ SetPDataHelper.params.map Prod.fst

/-- What the tables say about a parameter. -/
structure InTables (paramAlias : String) : Prop where
  agree : (aliases.lookup paramAlias).map Target.member = SetPDataHelper.init paramAlias ↔
    paramAlias ∉ driftedAliases
  moved : constantSuffix paramAlias = some "" ↔ paramAlias ∈ movedAliases
  renamed : (∃ suffix ∈ constantSuffix paramAlias, suffix ≠ "") ↔ paramAlias ∈ renamedAliases

theorem agree_of_mem : ∀ paramAlias ∈ knownAliases,
    (aliases.lookup paramAlias).map Target.member = SetPDataHelper.init paramAlias ↔
      paramAlias ∉ driftedAliases := by
  decide +kernel

theorem constantSuffix_of_mem : ∀ paramAlias ∈ knownAliases,
    (constantSuffix paramAlias = some "" ↔ paramAlias ∈ movedAliases) ∧
      ((∃ suffix ∈ constantSuffix paramAlias, suffix ≠ "") ↔ paramAlias ∈ renamedAliases) := by
  decide +kernel

theorem mem_knownAliases :
    ∀ paramAlias ∈ driftedAliases ++ movedAliases ++ renamedAliases,
      paramAlias ∈ knownAliases := by
  decide +kernel

theorem lookup_eq_none_of_notMem {β : Type} {entries : List (String × β)} {key : String}
    (absent : key ∉ entries.map Prod.fst) : entries.lookup key = none := by
  rw [List.lookup_eq_none_iff]
  intro entry member
  rw [bne_iff_ne]
  rintro rfl
  exact absent (List.mem_map_of_mem member)

theorem inTables (paramAlias : String) : InTables paramAlias := by
  by_cases known : paramAlias ∈ knownAliases
  · have constant := constantSuffix_of_mem paramAlias known
    exact ⟨agree_of_mem paramAlias known, constant.1, constant.2⟩
  · have unlisted : paramAlias ∉ driftedAliases ++ movedAliases ++ renamedAliases := fun listed =>
      known (mem_knownAliases paramAlias listed)
    simp only [List.mem_append, not_or] at unlisted
    rw [knownAliases, List.mem_append, not_or] at known
    have noTarget := lookup_eq_none_of_notMem known.1
    have noSuffix : constantSuffix paramAlias = none := by rw [constantSuffix, noTarget]
    constructor
    · rw [SetPDataHelper.init, noTarget, lookup_eq_none_of_notMem known.2]
      exact iff_of_true rfl unlisted.1.1
    · rw [noSuffix]
      exact iff_of_false nofun unlisted.1.2
    · rw [noSuffix]
      exact iff_of_false (by simp) unlisted.2

end Tables

/-! ## Where a value is stored -/

section Stores

variable [RowReading F]

/-- A change of a time series stores the value at a field, or nowhere. -/
def StoresAt (target : Option (CellKey × PData.Member)) (value : F)
    (change : TimeSerie F → TimeSerie F) : Prop :=
  ∀ serie key member, serieField (change serie) key member =
    if target = some (key, member) then value else serieField serie key member

/-- A change stores the value at one field only. -/
theorem StoresAt.unique [Nontrivial F] {left right : Option (CellKey × PData.Member)} {value : F}
    {change : TimeSerie F → TimeSerie F} (atLeft : StoresAt left value change)
    (atRight : StoresAt right value change) : left = right := by
  obtain ⟨other, different⟩ := exists_ne value
  have same : ∀ key member, left = some (key, member) ↔ right = some (key, member) := by
    intro key member
    have before : serieField ((∅ : TimeSerie F).updateCell key fun data => data.set member other)
        key member = other := by
      rw [serieField_assigned, if_pos ⟨rfl, rfl⟩]
    have equal := (atLeft (TimeSerie.updateCell ∅ key fun data => data.set member other) key
      member).symm.trans (atRight _ key member)
    rw [before] at equal
    by_cases isLeft : left = some (key, member)
    · rw [if_pos isLeft] at equal
      refine iff_of_true isLeft ?_
      by_contra notRight
      rw [if_neg notRight] at equal
      exact different equal.symm
    · rw [if_neg isLeft] at equal
      refine iff_of_false isLeft fun isRight => ?_
      rw [if_pos isRight] at equal
      exact different equal
  apply Option.ext
  rintro ⟨key, member⟩
  exact same key member

/-- The row of a value for finite times. -/
def valueRow (paramAlias : String) (provider : Bytes) (validfrom validto : ℤ) (value : F) :
    DecodedRow F :=
  ⟨paramAlias, provider, .ticks validfrom, .ticks validto, some value⟩

omit [RowReading F] in
theorem storedTimes_valueRow (paramAlias : String) (provider : Bytes) (validfrom validto : ℤ)
    (value : F) : storedTimes (valueRow paramAlias provider validfrom validto value) =
      (.ticks validto, .ticks validfrom) := by
  simp [storedTimes, valueRow]

omit [RowReading F] in
theorem rowKey_valueRow (paramAlias : String) (provider : Bytes) (validfrom validto : ℤ)
    (value : F) : rowKey (valueRow paramAlias provider validfrom validto value) =
      (.ticks validto, .ticks validfrom, provider) := by
  rw [rowKey, storedTimes_valueRow]
  rfl

/-- Set the value of a parameter in a cell as the averages near the coast are set. -/
def setInCell (paramAlias : String) (provider : Bytes) (validfrom validto : ℤ) (value : F)
    (serie : TimeSerie F) : TimeSerie F :=
  serie.updateCell (.ticks validto, .ticks validfrom, provider) fun data =>
    SetPDataHelper.set paramAlias data value

/-- Both decoders store a value of a parameter into the same member, or both ignore it. -/
def DecodersAgree (paramAlias : String) (validfrom validto : ℤ) (value : F) : Prop :=
  ∃ member? : Option PData.Member, ∀ provider,
    (∃ target, target.map Prod.snd = member? ∧ StoresAt target value fun serie =>
      storeRow serie (valueRow paramAlias provider validfrom validto value)) ∧
    (∃ target, target.map Prod.snd = member? ∧ StoresAt target value
      (setInCell paramAlias provider validfrom validto value))

/-- Whoever reads the time series reads the same after either decoder stored a value. -/
def ReadAlike (paramAlias : String) (validfrom validto : ℤ) (value : F) : Prop :=
  ∀ provider serie, storeRow serie (valueRow paramAlias provider validfrom validto value) =
    setInCell paramAlias provider validfrom validto value serie

/-! ### The targets of the two decoders -/

variable (paramAlias : String) (provider : Bytes) (validfrom validto : ℤ) (value : F)

/-- The field that `SetPDataHelper` assigns. -/
def helperTarget : Option (CellKey × PData.Member) :=
  (SetPDataHelper.init paramAlias).map fun member =>
    ((.ticks validto, .ticks validfrom, provider), member)

theorem storesAt_storeRow :
    StoresAt (rowTarget (valueRow paramAlias provider validfrom validto value)) value fun serie =>
      storeRow serie (valueRow paramAlias provider validfrom validto value) := by
  intro serie key member
  rw [serieField_storeRow]
  rfl

theorem storesAt_setInCell :
    StoresAt (helperTarget paramAlias provider validfrom validto) value
      (setInCell paramAlias provider validfrom validto value) := by
  intro serie key member
  simp only [setInCell, SetPDataHelper.set, helperTarget]
  rcases Option.eq_none_or_eq_some (SetPDataHelper.init paramAlias) with found | ⟨assigned, found⟩
  · simp only [found]
    exact serieField_created ..
  · simp only [found, serieField_assigned, Option.map_some, Option.some.injEq, Prod.mk.injEq]
    exact if_congr (by rw [eq_comm, @eq_comm _ assigned]) rfl rfl

omit [RowReading F] in
theorem map_rowTarget_valueRow :
    (rowTarget (valueRow paramAlias provider validfrom validto value)).map Prod.snd =
      (aliases.lookup paramAlias).map Target.member := by
  rw [rowTarget, valueRow]
  cases aliases.lookup paramAlias with
  | none => rfl
  | some target =>
      cases target with
      | cell member => rfl
      | constantField member suffix => rfl

theorem map_helperTarget :
    (helperTarget paramAlias provider validfrom validto).map Prod.snd =
      SetPDataHelper.init paramAlias := by
  rw [helperTarget]
  cases SetPDataHelper.init paramAlias with
  | none => rfl
  | some member => rfl

end Stores

/-! ## What the decoders agree about -/

section Agreement

variable [RowReading F] {paramAlias : String} {validfrom validto : ℤ} {value : F}

theorem decodersAgree_iff_tables [Nontrivial F] : DecodersAgree paramAlias validfrom validto value ↔
    (aliases.lookup paramAlias).map Target.member = SetPDataHelper.init paramAlias := by
  constructor
  · rintro ⟨member?, stores⟩
    obtain ⟨⟨decoded, ofDecoded, atDecoded⟩, set, ofSet, atSet⟩ := stores []
    rw [← map_rowTarget_valueRow paramAlias [] validfrom validto value,
      ← map_helperTarget paramAlias [] validfrom validto,
      (storesAt_storeRow paramAlias [] validfrom validto value).unique atDecoded,
      (storesAt_setInCell paramAlias [] validfrom validto value).unique atSet, ofDecoded, ofSet]
  · intro agree
    refine ⟨SetPDataHelper.init paramAlias, fun provider => ⟨⟨_, ?_,
      storesAt_storeRow paramAlias provider validfrom validto value⟩, _, ?_,
      storesAt_setInCell paramAlias provider validfrom validto value⟩⟩
    · rw [map_rowTarget_valueRow, agree]
    · rw [map_helperTarget]

/-- The time series are the same when the same field is assigned. -/
theorem storeRow_eq_setInCell {provider : Bytes}
    (same : rowTarget (valueRow paramAlias provider validfrom validto value) =
      helperTarget paramAlias provider validfrom validto) (serie : TimeSerie F) :
    storeRow serie (valueRow paramAlias provider validfrom validto value) =
      setInCell paramAlias provider validfrom validto value serie := by
  have isValue : (valueRow paramAlias provider validfrom validto value).value = some value := rfl
  cases isTarget : rowTarget (valueRow paramAlias provider validfrom validto value) with
  | none =>
      rw [isTarget, helperTarget, eq_comm, Option.map_eq_none_iff] at same
      simp only [storeRow_of_none (Or.inr isTarget), rowKey_valueRow, setInCell,
        SetPDataHelper.set, same]
      rfl
  | some target =>
      rw [isTarget, helperTarget, eq_comm, Option.map_eq_some_iff] at same
      obtain ⟨assigned, isInit, rfl⟩ := same
      simp only [storeRow_of_some isValue isTarget, rowKey_valueRow,
        TimeSerie.updateCell_updateCell, setInCell, SetPDataHelper.set, isInit, id]

theorem readAlike_iff_targets [Nontrivial F] : ReadAlike paramAlias validfrom validto value ↔
    ∀ provider, rowTarget (valueRow paramAlias provider validfrom validto value) =
      helperTarget paramAlias provider validfrom validto := by
  constructor
  · intro alike provider
    have sameChange : (fun serie : TimeSerie F =>
        storeRow serie (valueRow paramAlias provider validfrom validto value)) =
          setInCell paramAlias provider validfrom validto value :=
      funext (alike provider)
    have decoded := storesAt_storeRow paramAlias provider validfrom validto value
    rw [sameChange] at decoded
    exact decoded.unique (storesAt_setInCell paramAlias provider validfrom validto value)
  · intro same provider serie
    exact storeRow_eq_setInCell (same provider) serie

theorem str_eq_nil_iff {literal : String} : Bytes.str literal = [] ↔ literal = "" := by
  rw [Bytes.str, List.map_eq_nil_iff]
  simp

omit [RowReading F] in
/-- The fields are the same when the tables agree and a constant field is stored where the row
is. -/
theorem targets_eq_iff :
    (∀ provider, rowTarget (valueRow paramAlias provider validfrom validto value) =
      helperTarget paramAlias provider validfrom validto) ↔
    (aliases.lookup paramAlias).map Target.member = SetPDataHelper.init paramAlias ∧
      ∀ suffix ∈ constantSuffix paramAlias, suffix = "" ∧ validfrom = 0 ∧ validto = 0 := by
  have keys (provider : Bytes) (suffix : String) :
      (PTime.epoch, PTime.epoch, provider ++ Bytes.str suffix) =
          ((.ticks validto, .ticks validfrom, provider) : CellKey) ↔
        suffix = "" ∧ validfrom = 0 ∧ validto = 0 := by
    simp only [PTime.epoch, Prod.mk.injEq, PTime.ticks.injEq, List.append_right_eq_self,
      str_eq_nil_iff, @eq_comm ℤ 0]
    tauto
  simp only [rowTarget, rowKey_valueRow, helperTarget, constantSuffix]
  simp only [valueRow]
  cases found : aliases.lookup paramAlias with
  | none =>
      cases SetPDataHelper.init paramAlias with
      | none => simp
      | some member => simp
  | some target =>
      cases target with
      | cell member =>
          cases SetPDataHelper.init paramAlias with
          | none => simp [Target.member]
          | some assigned => simp [Target.member]
      | constantField member suffix =>
          cases SetPDataHelper.init paramAlias with
          | none => simp [Target.member]
          | some assigned => simp [Target.member, keys, and_comm]

/-- The decoders store into the same member exactly when the parameter has not drifted, and then
their values are read alike exactly when the parameter is no constant field that is stored under
another name or, for finite times, at another time. -/
theorem decoders_agree_iff [Nontrivial F] (paramAlias : String) (validfrom validto : ℤ)
    (value : F) :
    (DecodersAgree paramAlias validfrom validto value ↔ paramAlias ∉ driftedAliases) ∧
      (ReadAlike paramAlias validfrom validto value ↔
        paramAlias ∉ driftedAliases ∧ paramAlias ∉ renamedAliases ∧
          (paramAlias ∈ movedAliases → validfrom = 0 ∧ validto = 0)) := by
  have listed := inTables paramAlias
  constructor
  · rw [decodersAgree_iff_tables, listed.agree]
  · rw [readAlike_iff_targets, targets_eq_iff, listed.agree]
    apply and_congr_right
    intro notDrifted
    constructor
    · intro atRow
      constructor
      · rw [← listed.renamed]
        rintro ⟨suffix, isSuffix, notEmpty⟩
        exact notEmpty (atRow suffix isSuffix).1
      · rw [← listed.moved]
        intro isSuffix
        exact (atRow "" isSuffix).2
    · rintro ⟨notRenamed, atEpoch⟩ suffix isSuffix
      rw [← listed.renamed] at notRenamed
      rw [← listed.moved] at atEpoch
      have empty : suffix = "" := by
        by_contra notEmpty
        exact notRenamed ⟨suffix, isSuffix, notEmpty⟩
      rw [empty] at isSuffix
      exact ⟨empty, atEpoch isSuffix⟩

end Agreement

theorem decoders_agree_temperature :
    (DecodersAgree "T.2M" 0 3600000000 (4 : ℚ) ↔ "T.2M" ∉ driftedAliases) ∧
      (ReadAlike "T.2M" 0 3600000000 (4 : ℚ) ↔
        "T.2M" ∉ driftedAliases ∧ "T.2M" ∉ renamedAliases ∧
          ("T.2M" ∈ movedAliases → (0 : ℤ) = 0 ∧ (3600000000 : ℤ) = 0)) :=
  decoders_agree_iff "T.2M" 0 3600000000 4

/-- The height of the swell is known to `decodePData` only. -/
theorem not_decodersAgree_swell :
    ¬DecodersAgree "significantSwellWaveHeight" 0 3600000000 (2 : ℚ) := by
  rw [decodersAgree_iff_tables]
  decide +kernel

end DecodePData

end Wdb2ts
