import Wdb2ts.RequestConf

/-!
# Version lists

The versions of a request are kept in descending order, one for each number, and `resolve`
completes them from the default settings.
-/

namespace Wdb2ts

namespace config.Request

variable {F : Type} (objects : Objects F)

/-! ## One call -/

/-- The order of the versions in the list. -/
def descendingKey (it : ℕ) : (ℤ ×ₗ ℤ)ᵒᵈ := OrderDual.toDual (objects it).version.number

/-- The version numbers descend along the list, so none occurs twice. -/
def Descending (versions : List ℕ) : Prop :=
  (versions.map fun it => (objects it).version.number).Pairwise (· > ·)

/-- The call has a version that is not in the list yet. -/
def IsNew (request : Request F) (call : Option ℕ) (it : ℕ) : Prop :=
  call = some it ∧ (objects it).version.Numbered ∧ it ∉ request.requestVersions

variable {objects}

theorem insertIdx_place {request : Request F} {it : ℕ} (numbered : (objects it).version.Numbered) :
    request.requestVersions.insertIdx (place objects request it) it =
      KeyedList.insert (descendingKey objects) it request.requestVersions := by
  have sameTest : (fun other => !(objects it).version.less (objects other).version) =
      fun other => !decide (descendingKey objects other < descendingKey objects it) := by
    funext other
    rw [Bool.eq_iff_iff]
    simp only [Bool.not_eq_true', Bool.eq_false_iff, ne_eq, decide_eq_true_eq,
      Version.less_iff numbered, descendingKey, OrderDual.toDual_lt_toDual]
  rw [place, sameTest, KeyedList.insertIdx_findIdx]

/-- A new version is put in its place. -/
theorem addRequestVersion_of_isNew {request : Request F} {call : Option ℕ} {it : ℕ}
    (isNew : IsNew objects request call it) :
    request.addRequestVersion objects call =
      ⟨true, [], { request with
        requestVersions :=
          KeyedList.insert (descendingKey objects) it request.requestVersions }⟩ := by
  cases isNew.1
  rw [addRequestVersion, if_neg (by simp [isNew.2.1.1, isNew.2.1.2]), if_neg isNew.2.2]
  simp only [insertIdx_place isNew.2.1]

/-- Every other call is rejected and changes nothing. -/
theorem addRequestVersion_of_not_isNew {request : Request F} {call : Option ℕ}
    (notNew : ∀ it, ¬IsNew objects request call it) :
    (request.addRequestVersion objects call).accepted = false ∧
      (request.addRequestVersion objects call).request = request := by
  cases call with
  | none => exact ⟨rfl, rfl⟩
  | some it =>
      rw [addRequestVersion]
      split
      · exact ⟨rfl, rfl⟩
      · next numbered =>
          split
          · exact ⟨rfl, rfl⟩
          · next absent =>
              rw [Bool.or_eq_true, not_or] at numbered
              exact absurd ⟨rfl, ⟨by simpa using numbered.1, by simpa using numbered.2⟩, absent⟩
                (notNew it)

/-! ## Runs of calls -/

theorem addRequestVersions_append (request : Request F) (before : List (Option ℕ))
    (call : Option ℕ) :
    request.addRequestVersions objects (before ++ [call]) =
      ((request.addRequestVersions objects before).addRequestVersion objects call).request := by
  rw [addRequestVersions, List.foldl_append]
  rfl

/-- What a run of calls keeps: it holds without calls, and each call puts a new version in its
place or changes nothing. -/
theorem addRequestVersions_induction {motive : List (Option ℕ) → Request F → Prop}
    {request : Request F} (nil : motive [] request)
    (new : ∀ before call it (current : Request F), IsNew objects current call it →
      motive before current →
        motive (before ++ [call])
          { current with
            requestVersions :=
              KeyedList.insert (descendingKey objects) it current.requestVersions })
    (old : ∀ before call (current : Request F), (∀ it, ¬IsNew objects current call it) →
      motive before current → motive (before ++ [call]) current)
    (calls : List (Option ℕ)) : motive calls (request.addRequestVersions objects calls) := by
  induction calls using List.reverseRecOn with
  | nil => exact nil
  | append_singleton before call ih =>
      rw [addRequestVersions_append]
      by_cases isNew : ∃ it, IsNew objects (request.addRequestVersions objects before) call it
      · obtain ⟨it, isNew⟩ := isNew
        rw [addRequestVersion_of_isNew isNew]
        exact new before call it _ isNew ih
      · have notNew := not_exists.mp isNew
        rw [(addRequestVersion_of_not_isNew notNew).2]
        exact old before call _ notNew ih

/-- The calls leave the default settings alone. -/
theorem requestDefault_addRequestVersions (request : Request F) (calls : List (Option ℕ)) :
    (request.addRequestVersions objects calls).requestDefault = request.requestDefault :=
  addRequestVersions_induction (motive := fun _ current =>
      current.requestDefault = request.requestDefault) rfl
    (fun _ _ _ _ _ kept => kept) (fun _ _ _ _ kept => kept) calls

variable (objects) in
/-- The request behind a run of calls that begins without versions. -/
def behind (requestDefault : RequestConf F) (path : miutil.Value) (calls : List (Option ℕ)) :
    Request F :=
  addRequestVersions objects ⟨requestDefault, [], path⟩ calls

variable (objects) in
/-- The list has the versions of the calls that have a number, each one once. -/
def Lists (calls : List (Option ℕ)) (request : Request F) : Prop :=
  (∀ it, it ∈ request.requestVersions ↔ some it ∈ calls ∧ (objects it).version.Numbered) ∧
    request.requestVersions.Nodup

theorem Lists.insert {before : List (Option ℕ)} {call : Option ℕ} {it : ℕ} {current : Request F}
    (lists : Lists objects before current) (isNew : IsNew objects current call it) :
    Lists objects (before ++ [call])
      { current with
        requestVersions :=
          KeyedList.insert (descendingKey objects) it current.requestVersions } := by
  constructor
  · intro other
    rw [KeyedList.mem_insert, lists.1, List.mem_append, List.mem_singleton, isNew.1]
    constructor
    · rintro (rfl | listed)
      · exact ⟨Or.inr rfl, isNew.2.1⟩
      · exact ⟨Or.inl listed.1, listed.2⟩
    · rintro ⟨earlier | same, numbered⟩
      · exact Or.inr ⟨earlier, numbered⟩
      · exact Or.inl (Option.some.inj same)
  · exact (List.perm_orderedInsert _ it _).nodup_iff.mpr
      (List.nodup_cons.mpr ⟨isNew.2.2, lists.2⟩)

theorem Lists.keep {before : List (Option ℕ)} {call : Option ℕ} {current : Request F}
    (lists : Lists objects before current) (notNew : ∀ it, ¬IsNew objects current call it) :
    Lists objects (before ++ [call]) current := by
  constructor
  · intro it
    rw [lists.1, List.mem_append, List.mem_singleton]
    constructor
    · exact fun listed => ⟨Or.inl listed.1, listed.2⟩
    · rintro ⟨earlier | same, numbered⟩
      · exact ⟨earlier, numbered⟩
      · by_contra absent
        exact notNew it ⟨same.symm, numbered, mt (lists.1 it).mp absent⟩
  · exact lists.2

theorem lists_nil (requestDefault : RequestConf F) (path : miutil.Value) :
    Lists objects [] ⟨requestDefault, [], path⟩ := by
  constructor
  · simp
  · exact List.nodup_nil

variable (objects) in
theorem lists_behind (requestDefault : RequestConf F) (path : miutil.Value)
    (calls : List (Option ℕ)) : Lists objects calls (behind objects requestDefault path calls) := by
  rw [behind]
  induction calls using addRequestVersions_induction with
  | nil => exact lists_nil requestDefault path
  | new before call it current isNew lists => exact lists.insert isNew
  | old before call current notNew lists => exact lists.keep notNew

variable (objects) in
/-- The calls have one object for each version number. -/
def OneForEachNumber (calls : List (Option ℕ)) : Prop :=
  ∀ first second, some first ∈ calls → some second ∈ calls →
    (objects first).version.Numbered → (objects first).version = (objects second).version →
      first = second

theorem OneForEachNumber.of_prefix {before calls : List (Option ℕ)}
    (oneForEach : OneForEachNumber objects calls) (isPrefix : before <+: calls) :
    OneForEachNumber objects before :=
  fun first second memberFirst memberSecond =>
    oneForEach first second (isPrefix.subset memberFirst) (isPrefix.subset memberSecond)

theorem descending_iff {versions : List ℕ} :
    Descending objects versions ↔
      versions.Pairwise fun earlier later =>
        descendingKey objects earlier < descendingKey objects later := by
  rw [Descending, List.pairwise_map]
  rfl

/-- A version with a new number keeps the order. -/
theorem Descending.insert {calls : List (Option ℕ)} {it : ℕ} {current : Request F}
    (descending : Descending objects current.requestVersions)
    (lists : Lists objects calls current) (isNew : IsNew objects current (some it) it)
    (oneForEach : OneForEachNumber objects (calls ++ [some it])) :
    Descending objects
      (KeyedList.insert (descendingKey objects) it current.requestVersions) := by
  rw [descending_iff] at descending ⊢
  apply KeyedList.pairwise_lt_insert descending
  intro other member same
  have sameVersion : (objects it).version = (objects other).version :=
    Version.number_injective (OrderDual.toDual.injective same)
  have equal := oneForEach it other (List.mem_append_right calls List.mem_cons_self)
    (List.mem_append_left [some it] ((lists.1 other).mp member).1) isNew.2.1 sameVersion
  exact isNew.2.2 (equal ▸ member)

/-- The list is in descending order behind calls with one object for each number. -/
theorem descending_behind (requestDefault : RequestConf F) (path : miutil.Value)
    {calls : List (Option ℕ)} (oneForEach : OneForEachNumber objects calls) :
    Descending objects (behind objects requestDefault path calls).requestVersions := by
  have kept : ∀ calls : List (Option ℕ), OneForEachNumber objects calls →
      Lists objects calls (behind objects requestDefault path calls) ∧
        Descending objects (behind objects requestDefault path calls).requestVersions := by
    intro calls
    rw [behind]
    induction calls using addRequestVersions_induction with
    | nil => exact fun _ => ⟨lists_nil requestDefault path, List.Pairwise.nil⟩
    | new before call it current isNew ih =>
        intro oneForEach
        have earlier := ih (oneForEach.of_prefix (List.prefix_append before [call]))
        cases isNew.1
        exact ⟨earlier.1.insert isNew, earlier.2.insert earlier.1 isNew oneForEach⟩
    | old before call current notNew ih =>
        intro oneForEach
        have earlier := ih (oneForEach.of_prefix (List.prefix_append before [call]))
        exact ⟨earlier.1.keep notNew, earlier.2⟩
  exact (kept calls oneForEach).2

/-- A list in descending order has no two objects with one version number. -/
theorem Descending.eq_of_version_eq {versions : List ℕ} (descending : Descending objects versions)
    {first second : ℕ} (memberFirst : first ∈ versions) (memberSecond : second ∈ versions)
    (same : (objects first).version = (objects second).version) : first = second := by
  have distinct : (versions.map fun it => (objects it).version.number).Nodup :=
    descending.imp fun greater => greater.ne'
  exact List.inj_on_of_nodup_map distinct memberFirst memberSecond (by rw [same])

/-! ## Resolved versions -/

theorem definition_inheritActionParam (own default : ActionParam) (key : Bytes) :
    ActionParam.definition (inheritActionParam own default) key =
      (ActionParam.definition own key).or (ActionParam.definition default key) := by
  have frame : ∀ (own : ActionParam) (entry : Bytes × miutil.Value), key ≠ entry.1 →
      ActionParam.definition
          (if entry.2.isNone then own
          else if (own.definition entry.1).isSome then own else own.insert entry.1 entry.2) key =
        own.definition key := by
    intro own entry different
    split
    · rfl
    · split
      · rfl
      · rw [ActionParam.definition, SortedMap.find?_insert_of_ne own different,
          ActionParam.definition]
  have effect : ∀ (own : ActionParam) (value : miutil.Value),
      ActionParam.definition
          (if value.isNone then own
          else if (own.definition key).isSome then own else own.insert key value) key =
        (own.definition key).or value := by
    intro own value
    cases value with
    | none => simp
    | some text =>
        cases defined : own.definition key with
        | none => simp [ActionParam.definition]
        | some own => simp [defined]
  have folded := SortedMap.foldl_entries (fun own : ActionParam => own.definition key)
    (fun own value => own.or value) frame effect default own
  rw [inheritActionParam, folded, ActionParam.definition.eq_def default]
  cases default.find? key with
  | none => simp
  | some value => rfl

/-- Every setting of a version is its own when it has one, and otherwise the one of the default
settings. -/
structure Inherits (own default resolved : RequestConf F) : Prop where
  queryid : resolved.queryid = own.queryid.or default.queryid
  action : resolved.action = own.action.or default.action
  wdbDB : resolved.wdbDB = own.wdbDB.or default.wdbDB
  actionParam : ∀ key, resolved.actionParam.definition key =
    (own.actionParam.definition key).or (default.actionParam.definition key)
  paramdef : (∀ id list, default.paramdef.find? id = some list → list.Filed) →
    ∀ id provider alias_, resolved.paramdef.definition id provider alias_ =
      (own.paramdef.definition id provider alias_).or
        (default.paramdef.definition id provider alias_)
  version : resolved.version = own.version

theorem ite_isSome_eq_or (own default : miutil.Value) :
    (if own.isSome then own else default) = own.or default := by
  cases own <;> rfl

theorem inherits_inherit (own default : RequestConf F) :
    Inherits own default (inherit own default) where
  queryid := ite_isSome_eq_or own.queryid default.queryid
  action := ite_isSome_eq_or own.action default.action
  wdbDB := ite_isSome_eq_or own.wdbDB default.wdbDB
  actionParam := definition_inheritActionParam own.actionParam default.actionParam
  paramdef := by
    intro filed id provider alias_
    have paramdef : (inherit own default).paramdef =
        if default.paramdef.entries.isEmpty then own.paramdef
        else ParamDefConfig.merge own.paramdef default.paramdef := rfl
    rw [paramdef]
    split
    · next isEmpty =>
        have noList : default.paramdef.find? id = none := by
          rw [SortedMap.find?_eq_none_iff, List.isEmpty_iff.mp isEmpty]
          simp
        rw [ParamDefConfig.definition.eq_def default.paramdef, noList, Option.bind_none,
          Option.or_none]
    · exact ParamDefConfig.definition_merge own.paramdef filed id provider alias_
  version := rfl

/-- The loop over the versions completes each of them once. -/
theorem inheritAll_apply (default : RequestConf F) {versions : List ℕ} (nodup : versions.Nodup)
    (objects : Objects F) (it : ℕ) :
    inheritAll default versions objects it =
      if it ∈ versions then inherit (objects it) default else objects it := by
  induction versions generalizing objects with
  | nil => rfl
  | cons first rest ih =>
      rw [List.nodup_cons] at nodup
      have step : inheritAll default (first :: rest) objects =
          inheritAll default rest
            (Function.update objects first (inherit (objects first) default)) := rfl
      rw [step, ih nodup.2]
      by_cases same : it = first
      · rw [same, if_neg nodup.1, if_pos List.mem_cons_self, Function.update_self]
      · rw [Function.update_of_ne same]
        simp only [List.mem_cons, same, false_or]

variable (objects) in
/-- Every listed version is complete behind `resolve`. -/
theorem inherits_resolve {request : Request F} (nodup : request.requestVersions.Nodup) {it : ℕ}
    (listed : it ∈ request.requestVersions) :
    Inherits (objects it) request.requestDefault ((resolve objects request).1 it) := by
  have completed : (resolve objects request).1 it =
      inheritAll request.requestDefault request.requestVersions objects it := rfl
  rw [completed, inheritAll_apply request.requestDefault nodup, if_pos listed]
  exact inherits_inherit (objects it) request.requestDefault

/-! ## The default version -/

theorem defaultVersion_of_numbered {request : Request F}
    (numbered : request.requestDefault.version.Numbered) :
    defaultVersion objects request = request.requestDefault.version := by
  rw [defaultVersion, if_neg (by simp [numbered.2]), if_neg (by simp [numbered.1])]

/-- A default version that is no number is left unset or taken from the list. -/
theorem defaultVersion_of_not_numbered {request : Request F}
    (notNumbered : ¬request.requestDefault.version.Numbered) :
    defaultVersion objects request = Version.highest ∨
      ∃ it ∈ request.requestVersions, (objects it).version = defaultVersion objects request := by
  rw [defaultVersion]
  split
  · cases request.requestVersions with
    | nil => exact Or.inl rfl
    | cons it rest => exact Or.inr ⟨it, List.mem_cons_self, rfl⟩
  · next notHighest =>
      split
      · split
        · next listed =>
            obtain ⟨it, member, same⟩ := List.any_eq_true.mp listed
            exact Or.inr ⟨it, member, of_decide_eq_true same⟩
        · exact Or.inl rfl
      · next notInvalid =>
          exact absurd ⟨Bool.eq_false_iff.mpr notInvalid, Bool.eq_false_iff.mpr notHighest⟩
            notNumbered

/-! ## Lists that resolve -/

variable (objects) in
/-- What the version list and its resolution are to be, for a run of calls. -/
structure Resolves (requestDefault : RequestConf F) (path : miutil.Value)
    (calls : List (Option ℕ)) : Prop where
  /-- The list descends behind every part of the run. -/
  descending : ∀ before, before <+: calls →
    Descending objects (behind objects requestDefault path before).requestVersions
  /-- A second definition of a number is rejected and changes nothing. -/
  secondRejected : ∀ before it current, before ++ [some it] <+: calls →
    behind objects requestDefault path before = current →
      (∃ other ∈ current.requestVersions, (objects other).version = (objects it).version) →
        (current.addRequestVersion objects (some it)).accepted = false ∧
          (current.addRequestVersion objects (some it)).request = current
  /-- The resolved versions are complete. -/
  inherits : ∀ resolved, resolve objects (behind objects requestDefault path calls) = resolved →
    ∀ it ∈ resolved.2.requestVersions, Inherits (objects it) requestDefault (resolved.1 it)
  /-- The default version is unset or in the list. -/
  defaultListed : ∀ resolved,
    resolve objects (behind objects requestDefault path calls) = resolved →
      resolved.2.requestDefault.version = Version.highest ∨
        ∃ it ∈ resolved.2.requestVersions,
          (resolved.1 it).version = resolved.2.requestDefault.version

variable (objects) in
/-- The default version is one that `resolve` chooses, or one that a call has. -/
def DefaultKnown (version : Version) (calls : List (Option ℕ)) : Prop :=
  version.Numbered → ∃ it, some it ∈ calls ∧ (objects it).version = version

/-- A second definition of a number is the same object, which is in the list. -/
theorem secondRejected_of_oneForEachNumber {before : List (Option ℕ)} {it : ℕ}
    (oneForEach : OneForEachNumber objects (before ++ [some it])) {current : Request F}
    (lists : Lists objects before current)
    (second : ∃ other ∈ current.requestVersions, (objects other).version = (objects it).version) :
    (current.addRequestVersion objects (some it)).accepted = false ∧
      (current.addRequestVersion objects (some it)).request = current := by
  obtain ⟨other, member, same⟩ := second
  have listed := (lists.1 other).mp member
  have equal := oneForEach other it (List.mem_append_left [some it] listed.1)
    (List.mem_append_right before List.mem_cons_self) listed.2 same
  apply addRequestVersion_of_not_isNew
  intro called isNew
  cases isNew.1
  exact isNew.2.2 (equal ▸ member)

/-- The default version names a listed version behind `resolve` exactly when it is known. -/
theorem defaultListed_iff {requestDefault : RequestConf F} {calls : List (Option ℕ)}
    {request : Request F} (lists : Lists objects calls request)
    (kept : request.requestDefault = requestDefault) :
    ((resolve objects request).2.requestDefault.version = Version.highest ∨
        ∃ it ∈ (resolve objects request).2.requestVersions,
          ((resolve objects request).1 it).version =
            (resolve objects request).2.requestDefault.version) ↔
      DefaultKnown objects requestDefault.version calls := by
  have chosen : (resolve objects request).2.requestDefault.version =
      defaultVersion (resolve objects request).1 request := rfl
  have sameList : (resolve objects request).2.requestVersions = request.requestVersions := rfl
  rw [chosen, sameList]
  by_cases numbered : request.requestDefault.version.Numbered
  · rw [defaultVersion_of_numbered numbered, kept]
    rw [kept] at numbered
    constructor
    · rintro (unset | ⟨it, listed, same⟩) _
      · rw [unset] at numbered
        exact absurd numbered (by decide)
      · rw [(inherits_resolve objects lists.2 listed).version] at same
        exact ⟨it, ((lists.1 it).mp listed).1, same⟩
    · intro known
      obtain ⟨it, member, same⟩ := known numbered
      have listed := (lists.1 it).mpr ⟨member, same.symm ▸ numbered⟩
      exact Or.inr ⟨it, listed, by rw [(inherits_resolve objects lists.2 listed).version, same]⟩
  · constructor
    · exact fun _ known => absurd (kept ▸ known) numbered
    · exact fun _ => defaultVersion_of_not_numbered numbered

/-- The lists resolve exactly when no number belongs to two objects and a default version that is a
number is one that a call has. -/
theorem resolves_iff (objects : Objects F) (requestDefault : RequestConf F) (path : miutil.Value)
    (calls : List (Option ℕ)) :
    Resolves objects requestDefault path calls ↔
      OneForEachNumber objects calls ∧ DefaultKnown objects requestDefault.version calls := by
  have lists := lists_behind objects requestDefault path calls
  have kept : (behind objects requestDefault path calls).requestDefault = requestDefault :=
    requestDefault_addRequestVersions _ calls
  constructor
  · intro resolves
    constructor
    · intro first second memberFirst memberSecond numbered same
      have descending := resolves.descending calls (List.prefix_refl calls)
      exact descending.eq_of_version_eq ((lists.1 first).mpr ⟨memberFirst, numbered⟩)
        ((lists.1 second).mpr ⟨memberSecond, same ▸ numbered⟩) same
    · exact (defaultListed_iff lists kept).mp (resolves.defaultListed _ rfl)
  · rintro ⟨oneForEach, known⟩
    constructor
    · exact fun before isPrefix =>
        descending_behind requestDefault path (oneForEach.of_prefix isPrefix)
    · rintro before it current isPrefix rfl second
      exact secondRejected_of_oneForEachNumber (oneForEach.of_prefix isPrefix)
        (lists_behind objects requestDefault path before) second
    · rintro resolved rfl it listed
      have complete := inherits_resolve objects lists.2 listed
      rwa [kept] at complete
    · rintro resolved rfl
      exact (defaultListed_iff lists kept).mpr known

/-- Settings with nothing but a version. -/
def ofVersion (version : Version) : RequestConf ℚ := { RequestConf.create with version := version }

/-- Two objects with version 1.0 are both listed, and the default version 3.1 is kept though only
version 1.0 is listed. -/
theorem sameNumberTwice_and_unlistedDefault :
    ¬Resolves (fun _ => ofVersion ⟨1, 0⟩) RequestConf.create (some (Bytes.str "/"))
        [some 0, some 1] ∧
      ¬Resolves (fun _ => ofVersion ⟨1, 0⟩) (ofVersion ⟨3, 1⟩) (some (Bytes.str "/")) [some 0] := by
  constructor
  · intro resolves
    have descending := resolves.descending [some 0, some 1] (List.prefix_refl _)
    have zeroListed : 0 ∈ (behind (fun _ => ofVersion ⟨1, 0⟩) RequestConf.create
      (some (Bytes.str "/")) [some 0, some 1]).requestVersions := by decide
    have oneListed : 1 ∈ (behind (fun _ => ofVersion ⟨1, 0⟩) RequestConf.create
      (some (Bytes.str "/")) [some 0, some 1]).requestVersions := by decide
    exact absurd (descending.eq_of_version_eq zeroListed oneListed rfl) Nat.zero_ne_one
  · intro resolves
    have unlisted := resolves.defaultListed _ rfl
    revert unlisted
    decide

end config.Request

end Wdb2ts
