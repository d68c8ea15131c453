import Wdb2ts.QueryMaker

/-!
# The groups of parameters

The maker of the queries keeps the parameters of a provider in groups, by their levels.  A
group is found by a key that leaves out the unit of the level, and all parameters of the group
get the level that has made the group.
-/

namespace Wdb2ts

variable {F : Type}

/-! ## Groups by level -/

namespace LevelParams

/-- The groups of some parameters. -/
def group (params : List (ParamDef F)) : LevelParams F := params.foldl push ∅

/-- The parameters with a level of the given key. -/
def withKey (params : List (ParamDef F)) (key : LevelKey) : List (ParamDef F) :=
  params.filter fun param => decide ((Level.ofParam param).key = key)

theorem find?_push (levels : LevelParams F) (param : ParamDef F) (key : LevelKey) :
    (levels.push param).find? key =
      if key = (Level.ofParam param).key then
        match levels.find? key with
        | none => some (Level.ofParam param, [param])
        | some group => some (group.1, group.2 ++ [param])
      else levels.find? key := by
  rw [push, SortedMap.find?_upsert]
  split
  · rename_i same
    subst same
    cases levels.find? (Level.ofParam param).key <;> rfl
  · rfl

/-- A group has the level of its first parameter. -/
theorem find?_group (params : List (ParamDef F)) (key : LevelKey) :
    (group params).find? key =
      match withKey params key with
      | [] => none
      | first :: rest => some (Level.ofParam first, first :: rest) := by
  induction params using List.reverseRecOn with
  | nil => rfl
  | append_singleton earlier param ih =>
      have split : (group (earlier ++ [param])).find? key =
          ((group earlier).push param).find? key := by
        simp only [group, List.foldl_append, List.foldl_cons, List.foldl_nil]
      rw [split, find?_push, ih]
      simp only [withKey, List.filter_append]
      by_cases same : (Level.ofParam param).key = key
      · rw [if_pos same.symm]
        cases earlier.filter fun param => decide ((Level.ofParam param).key = key) with
        | nil => simp [same]
        | cons first rest => simp [same]
      · rw [if_neg (Ne.symm same)]
        simp [same]

end LevelParams

/-- The level of the group of a parameter. -/
def groupLevel (params : List (ParamDef F)) (param : ParamDef F) : Level :=
  match LevelParams.withKey params (Level.ofParam param).key with
  | [] => Level.ofParam param
  | first :: _ => Level.ofParam first

theorem isDefined_ofParam (param : ParamDef F) :
    (Level.ofParam param).isDefined = param.hasLevelparameters := by
  simp only [Level.ofParam]
  split
  · rename_i has
    rw [has]
    simp only [ParamDef.hasLevelparameters, Bool.and_eq_true] at has
    simp only [Level.isDefined]
    cases isEmpty : param.levelparametername.isEmpty with
    | true => simp [isEmpty] at has
    | false => simp
  · rename_i has
    rw [Bool.eq_false_iff.mpr has]
    rfl

/-- The key of a level tells whether the level is defined. -/
theorem isDefined_of_key_eq {level other : Level} (same : level.key = other.key) :
    level.isDefined = other.isDefined := by
  obtain ⟨sameName, sameFrom, sameTo, _⟩ := Level.key_eq_iff.mp same
  simp only [Level.isDefined, sameName, sameFrom, sameTo]

theorem mem_withKey {params : List (ParamDef F)} {param : ParamDef F} {key : LevelKey} :
    param ∈ LevelParams.withKey params key ↔
      param ∈ params ∧ (Level.ofParam param).key = key := by
  simp [LevelParams.withKey]

/-- The group of a parameter has the level of a parameter with the same key. -/
theorem groupLevel_cases {params : List (ParamDef F)} {param : ParamDef F}
    (member : param ∈ params) :
    ∃ first ∈ params, (Level.ofParam first).key = (Level.ofParam param).key ∧
      groupLevel params param = Level.ofParam first := by
  have own : param ∈ LevelParams.withKey params (Level.ofParam param).key :=
    mem_withKey.mpr ⟨member, rfl⟩
  simp only [groupLevel]
  cases found : LevelParams.withKey params (Level.ofParam param).key with
  | nil =>
      rw [found] at own
      cases own
  | cons first rest =>
      have inGroup : first ∈ LevelParams.withKey params (Level.ofParam param).key :=
        found ▸ List.mem_cons_self
      obtain ⟨inParams, same⟩ := mem_withKey.mp inGroup
      exact ⟨first, inParams, same, rfl⟩

theorem groupLevel_eq_of_key_eq {params : List (ParamDef F)} {param other : ParamDef F}
    (member : param ∈ params) (same : (Level.ofParam param).key = (Level.ofParam other).key) :
    groupLevel params param = groupLevel params other := by
  simp only [groupLevel, same]
  cases found : LevelParams.withKey params (Level.ofParam other).key with
  | nil =>
      have own : param ∈ LevelParams.withKey params (Level.ofParam other).key :=
        mem_withKey.mpr ⟨member, same⟩
      rw [found] at own
      cases own
  | cons first rest => rfl

/-! ## The parameters that are made of the groups -/

/-- The level that a parameter gets, when it is part of a query. -/
def levelOf (params : List (ParamDef F)) (level : Level) (param : ParamDef F) : Option Level :=
  if param.hasLevelparameters then some (groupLevel params param)
  else if level.isDefined then some level
  else none

namespace QueryMaker

/-- The parameters of the queries for the groups of a provider. -/
def madeParams (levels : LevelParams F) (level : Level) : List (ParamDef F) :=
  levels.entries.flatMap fun itLevel =>
    if itLevel.2.1.isDefined then itLevel.2.2.map (withLevel itLevel.2.1)
    else if level.isDefined then itLevel.2.2.map (withLevel level)
    else []

/-- The entries of the groups: the parameters of a key, with the level of the first one. -/
theorem mem_entries_group {params : List (ParamDef F)} {key : LevelKey} {lvl : Level}
    {members : List (ParamDef F)} :
    (key, (lvl, members)) ∈ (LevelParams.group params).entries ↔
      members = LevelParams.withKey params key ∧
        ∃ first rest, members = first :: rest ∧ lvl = Level.ofParam first := by
  rw [SortedMap.mem_entries_iff, LevelParams.find?_group]
  cases LevelParams.withKey params key with
  | nil =>
      simp only [reduceCtorEq, false_iff]
      rintro ⟨rfl, first, rest, isCons, _⟩
      cases isCons
  | cons first rest =>
      simp only [Option.some.injEq, Prod.mk.injEq]
      constructor
      · rintro ⟨rfl, rfl⟩
        exact ⟨rfl, first, rest, rfl, rfl⟩
      · rintro ⟨rfl, first, rest, isCons, rfl⟩
        cases isCons
        exact ⟨rfl, rfl⟩

/-- Every parameter of a group is made with the level that it gets. -/
theorem mem_madeParams {params : List (ParamDef F)} {level : Level} {made : ParamDef F} :
    made ∈ madeParams (LevelParams.group params) level ↔
      ∃ param ∈ params, ∃ own, levelOf params level param = some own ∧
        made = withLevel own param := by
  simp only [madeParams, List.mem_flatMap]
  constructor
  · rintro ⟨⟨key, lvl, members⟩, isEntry, isMade⟩
    obtain ⟨rfl, first, rest, isCons, rfl⟩ := mem_entries_group.mp isEntry
    have sameLevel {param : ParamDef F} (member : param ∈ LevelParams.withKey params key) :
        groupLevel params param = Level.ofParam first ∧
          param.hasLevelparameters = (Level.ofParam first).isDefined := by
      obtain ⟨_, same⟩ := mem_withKey.mp member
      have firstKey := (mem_withKey.mp (isCons ▸ List.mem_cons_self : first ∈ _)).2
      refine ⟨?_, ?_⟩
      · simp only [groupLevel, same, isCons]
      · rw [← isDefined_ofParam param, isDefined_of_key_eq (same.trans firstKey.symm)]
    simp only at isMade
    split at isMade
    · rename_i isDefined
      obtain ⟨param, member, rfl⟩ := List.mem_map.mp isMade
      obtain ⟨sameGroup, sameDefined⟩ := sameLevel member
      refine ⟨param, (mem_withKey.mp member).1, Level.ofParam first, ?_, rfl⟩
      rw [levelOf, if_pos (sameDefined.trans isDefined), sameGroup]
    · rename_i notDefined
      split at isMade
      · rename_i isRequested
        obtain ⟨param, member, rfl⟩ := List.mem_map.mp isMade
        obtain ⟨_, sameDefined⟩ := sameLevel member
        refine ⟨param, (mem_withKey.mp member).1, level, ?_, rfl⟩
        rw [levelOf, if_neg (sameDefined ▸ notDefined), if_pos isRequested]
      · cases isMade
  · rintro ⟨param, member, own, isOwn, rfl⟩
    have inKey : param ∈ LevelParams.withKey params (Level.ofParam param).key :=
      mem_withKey.mpr ⟨member, rfl⟩
    cases isCons : LevelParams.withKey params (Level.ofParam param).key with
    | nil =>
        rw [isCons] at inKey
        cases inKey
    | cons first rest =>
        have isEntry := mem_entries_group.mpr ⟨isCons.symm, first, rest, rfl, rfl⟩
        have firstKey := (mem_withKey.mp (isCons ▸ List.mem_cons_self : first ∈ _)).2
        have sameDefined : (Level.ofParam first).isDefined = param.hasLevelparameters := by
          rw [← isDefined_ofParam param, isDefined_of_key_eq firstKey]
        refine ⟨_, isEntry, ?_⟩
        rw [isCons] at inKey
        simp only [levelOf, groupLevel, isCons] at isOwn
        simp only [sameDefined]
        split at isOwn
        · rename_i has
          cases isOwn
          rw [if_pos has]
          exact List.mem_map_of_mem inKey
        · rename_i hasNot
          rw [if_neg hasNot]
          split at isOwn
          · rename_i isRequested
            cases isOwn
            rw [if_pos isRequested]
            exact List.mem_map_of_mem inKey
          · cases isOwn

end QueryMaker

end Wdb2ts
