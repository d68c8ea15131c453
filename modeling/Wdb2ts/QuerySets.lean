import Wdb2ts.QueryMaker
import Wdb2ts.Lib.Runs

/-!
# Combined sets of queries

A set of queries owns its queries, and a pointer to one of them tells the set and the position
in the set.  Adding a query looks for one with the same id and provider, and merging two sets
looks for the same pointer.
-/

namespace Wdb2ts

variable {F : Type}

namespace QuerysAndParamDefs

/-- The body of the loop of `merge`, for the query at a position of the other set. -/
def mergeQuery (set with_ : ℕ) (querys : List (Query F)) (itWith : Query F × ℕ) :
    List (Query F) :=
  match (List.range querys.length).find? fun position =>
      decide ((with_, itWith.2) = (set, position)) with
  | none => querys ++ [itWith.1]
  | some position => querys.modify position fun query => query.merge query

/-- `QuerysAndParamDefs::merge`, for the set `set` and the set `with_`. -/
def merge (set with_ : ℕ) (sets : ℕ → QuerysAndParamDefs F) : QuerysAndParamDefs F :=
  { sets set with
    querys := (sets with_).querys.zipIdx.foldl (mergeQuery set with_) (sets set).querys
    params := (sets set).params.merge (sets with_).params }

end QuerysAndParamDefs

/-- An operation on the sets of a program. -/
inductive SetOperation (F : Type) where
  | addQuery (set : ℕ) (q : Query F)
  | merge (set with_ : ℕ)

/-- Sets of queries, with the queries that have been added or merged into each of them. -/
structure QuerySets (F : Type) where
  sets : ℕ → QuerysAndParamDefs F
  contributed : ℕ → List (Query F)

namespace QuerySets

/-- Empty sets. -/
def initial (wciProtocol : ℤ) : QuerySets F :=
  ⟨fun _ => QuerysAndParamDefs.new wciProtocol, fun _ => []⟩

/-- One operation. -/
def step (state : QuerySets F) : SetOperation F → QuerySets F
  | .addQuery set q =>
      { sets := Function.update state.sets set ((state.sets set).addQuery q)
        contributed := Function.update state.contributed set (state.contributed set ++ [q]) }
  | .merge set with_ =>
      { sets := Function.update state.sets set (QuerysAndParamDefs.merge set with_ state.sets)
        contributed := Function.update state.contributed set
          (state.contributed set ++ (state.sets with_).querys) }

/-- The sets after some operations. -/
def after (wciProtocol : ℤ) (operations : List (SetOperation F)) : QuerySets F :=
  Runs.run step (initial wciProtocol) operations

end QuerySets

/-! ## The union of queries -/

namespace Query

/-- What tells queries apart. -/
def key (query : Query F) : Bytes × Bytes := (query.id, query.provider)

theorem isSame_iff {query rhs : Query F} : query.isSame rhs = true ↔ query.key = rhs.key := by
  simp [isSame, key]

@[simp] theorem key_merge (query with_ : Query F) : (query.merge with_).key = query.key := by
  simp only [merge]
  split <;> rfl

theorem mem_mergeQuerys {querys with_ : List Bytes} {text : Bytes} :
    text ∈ mergeQuerys querys with_ ↔ text ∈ querys ∨ text ∈ with_ := by
  induction with_ generalizing querys with
  | nil => simp [mergeQuerys]
  | cons head rest ih =>
      simp only [mergeQuerys, List.foldl_cons] at ih ⊢
      rw [ih]
      by_cases present : head ∈ querys
      · rw [if_pos present, List.mem_cons]
        constructor
        · rintro (inQuerys | inRest)
          · exact Or.inl inQuerys
          · exact Or.inr (Or.inr inRest)
        · rintro (inQuerys | rfl | inRest)
          · exact Or.inl inQuerys
          · exact Or.inl present
          · exact Or.inr inRest
      · rw [if_neg present, List.mem_append, List.mem_singleton, List.mem_cons, or_assoc]

theorem mem_mergeParams {params with_ : List (ParamDef F)} {param : ParamDef F}
    (member : param ∈ mergeParams params with_) : param ∈ params ∨ param ∈ with_ := by
  induction with_ generalizing params with
  | nil => exact Or.inl member
  | cons head rest ih =>
      rcases ih member with inParams | inRest
      · simp only at inParams
        split at inParams
        · exact Or.inl inParams
        · rcases List.mem_append.mp inParams with isOld | isHead
          · exact Or.inl isOld
          · exact Or.inr (List.mem_cons.mpr (Or.inl (List.mem_singleton.mp isHead)))
      · exact Or.inr (List.mem_cons_of_mem _ inRest)

theorem aliases_mergeParams {params with_ : List (ParamDef F)} {alias_ : Bytes} :
    (∃ param ∈ mergeParams params with_, param.alias_ = alias_) ↔
      (∃ param ∈ params, param.alias_ = alias_) ∨ ∃ param ∈ with_, param.alias_ = alias_ := by
  induction with_ generalizing params with
  | nil => simp [mergeParams]
  | cons head rest ih =>
      simp only [mergeParams, List.foldl_cons] at ih ⊢
      rw [ih, List.exists_mem_cons_iff]
      by_cases present : (params.any fun other => other.alias_ = head.alias_) = true
      · rw [if_pos present]
        have isDefined : head.alias_ = alias_ → ∃ param ∈ params, param.alias_ = alias_ := by
          rintro rfl
          simpa using present
        constructor
        · rintro (inParams | inRest)
          · exact Or.inl inParams
          · exact Or.inr (Or.inr inRest)
        · rintro (inParams | isHead | inRest)
          · exact Or.inl inParams
          · exact Or.inl (isDefined isHead)
          · exact Or.inr inRest
      · rw [if_neg present]
        constructor
        · rintro (⟨param, member, same⟩ | inRest)
          · rcases List.mem_append.mp member with isOld | isHead
            · exact Or.inl ⟨param, isOld, same⟩
            · rw [List.mem_singleton] at isHead
              exact Or.inr (Or.inl (isHead ▸ same))
          · exact Or.inr (Or.inr inRest)
        · rintro (⟨param, member, same⟩ | isHead | inRest)
          · exact Or.inl ⟨param, List.mem_append_left _ member, same⟩
          · exact Or.inl ⟨head, List.mem_append_right _ (List.mem_singleton_self _), isHead⟩
          · exact Or.inr inRest

/-- A query that is merged with itself stays the same. -/
theorem merge_self (query : Query F) : query.merge query = query := by
  have texts (querys with_ : List Bytes) (within : ∀ text ∈ with_, text ∈ querys) :
      mergeQuerys querys with_ = querys := by
    induction with_ with
    | nil => rfl
    | cons head rest ih =>
        rw [mergeQuerys, List.foldl_cons, if_pos (within head List.mem_cons_self)]
        exact ih fun text member => within text (List.mem_cons_of_mem _ member)
  have params (params with_ : List (ParamDef F)) (within : ∀ param ∈ with_, param ∈ params) :
      mergeParams params with_ = params := by
    induction with_ with
    | nil => rfl
    | cons head rest ih =>
        have present : (params.any fun other => other.alias_ = head.alias_) = true := by
          rw [List.any_eq_true]
          exact ⟨head, within head List.mem_cons_self, by simp⟩
        rw [mergeParams, List.foldl_cons, if_pos present]
        exact ih fun param member => within param (List.mem_cons_of_mem _ member)
  rw [merge, if_pos (isSame_iff.mpr rfl), texts _ _ fun _ member => member,
    params _ _ fun _ member => member]

end Query

/-- A query holds exactly the query strings and, by alias, the parameters of some queries. -/
structure IsUnion (query : Query F) (parts : List (Query F)) : Prop where
  texts : ∀ text, text ∈ query.querys ↔ ∃ part ∈ parts, text ∈ part.querys
  aliases : ∀ alias_, (∃ param ∈ query.params, param.alias_ = alias_) ↔
    ∃ part ∈ parts, ∃ param ∈ part.params, param.alias_ = alias_
  params : ∀ param ∈ query.params, ∃ part ∈ parts, param ∈ part.params

theorem isUnion_self (query : Query F) : IsUnion query [query] where
  texts := by simp
  aliases := by simp
  params param member := ⟨query, List.mem_singleton_self _, member⟩

/-- A merged query is the union with one query more. -/
theorem IsUnion.merge {query q : Query F} {parts : List (Query F)} (union : IsUnion query parts)
    (same : q.key = query.key) : IsUnion (query.merge q) (parts ++ [q]) := by
  rw [Query.merge, if_pos (Query.isSame_iff.mpr same)]
  constructor
  · intro text
    rw [Query.mem_mergeQuerys, union.texts]
    simp only [List.mem_append, List.mem_singleton, or_and_right, exists_or, exists_eq_left]
  · intro alias_
    rw [Query.aliases_mergeParams, union.aliases]
    simp only [List.mem_append, List.mem_singleton, or_and_right, exists_or, exists_eq_left]
  · intro param member
    rcases Query.mem_mergeParams member with inQuery | isNew
    · obtain ⟨part, inParts, inParams⟩ := union.params param inQuery
      exact ⟨part, List.mem_append_left _ inParts, inParams⟩
    · exact ⟨q, List.mem_append_right _ (List.mem_singleton_self _), isNew⟩

/-- The queries of a set, one for each id and provider, are the unions of the queries that have
been added or merged in. -/
structure Combines (querys contributed : List (Query F)) : Prop where
  unique : (querys.map Query.key).Nodup
  whole : ∀ query ∈ querys,
    IsUnion query (contributed.filter fun part => decide (part.key = query.key))
  complete : ∀ part ∈ contributed, ∃ query ∈ querys, query.key = part.key

/-- The queries with a given id and provider: at most one. -/
theorem filter_key_eq {querys : List (Query F)} (unique : (querys.map Query.key).Nodup)
    {query : Query F} (member : query ∈ querys) :
    (querys.filter fun part => decide (part.key = query.key)) = [query] := by
  induction querys with
  | nil => cases member
  | cons head rest ih =>
      obtain ⟨notInRest, restUnique⟩ := List.nodup_cons.mp unique
      rcases List.mem_cons.mp member with rfl | inRest
      · have others : (rest.filter fun part => decide (part.key = query.key)) = [] := by
          rw [List.filter_eq_nil_iff]
          intro part inRest same
          exact notInRest (List.mem_map.mpr ⟨part, inRest, of_decide_eq_true same⟩)
        rw [List.filter_cons, if_pos (decide_eq_true rfl), others]
      · have different : head.key ≠ query.key := fun same =>
          notInRest (List.mem_map.mpr ⟨query, inRest, same.symm⟩)
        rw [List.filter_cons, if_neg (by simpa using different)]
        exact ih restUnique inRest

theorem filter_key_eq_nil {querys : List (Query F)} {key : Bytes × Bytes}
    (absent : ∀ part ∈ querys, part.key ≠ key) :
    (querys.filter fun part => decide (part.key = key)) = [] := by
  rw [List.filter_eq_nil_iff]
  intro part member same
  exact absent part member (of_decide_eq_true same)

/-- The contributions with the key of no query of the set. -/
theorem Combines.filter_eq_nil {querys contributed : List (Query F)}
    (combines : Combines querys contributed) {key : Bytes × Bytes}
    (absent : ∀ query ∈ querys, query.key ≠ key) :
    (contributed.filter fun part => decide (part.key = key)) = [] := by
  refine filter_key_eq_nil fun part member same => ?_
  obtain ⟨query, inQuerys, sameKey⟩ := combines.complete part member
  exact absent query inQuerys (sameKey.trans same)

theorem combines_empty : Combines ([] : List (Query F)) [] where
  unique := List.nodup_nil
  whole query member := by cases member
  complete part member := by cases member

/-- The query that is found is the only one with its id and provider. -/
theorem modify_eq_map {querys : List (Query F)} (unique : (querys.map Query.key).Nodup)
    {q : Query F} {index : ℕ} (found : querys.findIdx? (fun query => query.isSame q) = some index) :
    (querys.modify index fun query => query.merge q) =
      querys.map fun query => if query.key = q.key then query.merge q else query := by
  induction querys generalizing index with
  | nil => cases found
  | cons head rest ih =>
      obtain ⟨notInRest, restUnique⟩ := List.nodup_cons.mp unique
      rw [List.findIdx?_cons] at found
      by_cases same : head.key = q.key
      · rw [if_pos (Query.isSame_iff.mpr same)] at found
        cases found
        rw [List.modify_zero_cons, List.map_cons, if_pos same]
        congr 1
        have unchanged : ∀ query ∈ rest,
            (if query.key = q.key then query.merge q else query) = query := by
          intro query member
          refine if_neg fun isOther => notInRest ?_
          exact List.mem_map.mpr ⟨query, member, isOther.trans same.symm⟩
        rw [List.map_congr_left unchanged, List.map_id']
      · rw [if_neg fun isSame => same (Query.isSame_iff.mp isSame)] at found
        obtain ⟨before, isBefore, rfl⟩ := Option.map_eq_some_iff.mp found
        rw [List.modify_succ_cons, List.map_cons, if_neg same, ih restUnique isBefore]

/-- A query that is merged keeps its key. -/
theorem Query.key_ite_merge (query q : Query F) :
    (if query.key = q.key then query.merge q else query).key = query.key := by
  split
  · exact Query.key_merge query q
  · rfl

/-- A query with a new key is put behind the others. -/
theorem Combines.append {querys contributed : List (Query F)}
    (combines : Combines querys contributed) {q : Query F}
    (absent : ∀ query ∈ querys, query.key ≠ q.key) :
    Combines (querys ++ [q]) (contributed ++ [q]) := by
  constructor
  · simp only [List.map_append, List.map_cons, List.map_nil]
    refine List.Nodup.append combines.unique (List.nodup_singleton _) ?_
    intro key inSet isNew
    rw [List.mem_singleton] at isNew
    obtain ⟨query, member, same⟩ := List.mem_map.mp inSet
    exact absent query member (same.trans isNew)
  · intro query member
    rw [List.filter_append]
    rcases List.mem_append.mp member with isOld | isNew
    · have noneNew : ([q].filter fun part => decide (part.key = query.key)) = [] := by
        refine filter_key_eq_nil fun part isPart same => ?_
        rw [List.mem_singleton] at isPart
        exact absent query isOld (isPart ▸ same).symm
      rw [noneNew, List.append_nil]
      exact combines.whole query isOld
    · rw [List.mem_singleton] at isNew
      subst isNew
      rw [combines.filter_eq_nil absent, List.nil_append, List.filter_cons,
        if_pos (decide_eq_true rfl)]
      exact isUnion_self query
  · intro part member
    rcases List.mem_append.mp member with isOld | isNew
    · obtain ⟨query, inSet, same⟩ := combines.complete part isOld
      exact ⟨query, List.mem_append_left _ inSet, same⟩
    · rw [List.mem_singleton] at isNew
      exact ⟨q, List.mem_append_right _ (List.mem_singleton_self _), isNew ▸ rfl⟩

/-- A query with a known key is merged into the query of that key. -/
theorem Combines.mergeOne {querys contributed : List (Query F)}
    (combines : Combines querys contributed) {known q : Query F} (isMember : known ∈ querys)
    (sameKey : known.key = q.key) :
    Combines (querys.map fun query => if query.key = q.key then query.merge q else query)
      (contributed ++ [q]) := by
  constructor
  · rw [List.map_map]
    have keys : (Query.key ∘ fun query => if query.key = q.key then query.merge q else query) =
        (Query.key : Query F → Bytes × Bytes) :=
      funext fun query => query.key_ite_merge q
    rw [keys]
    exact combines.unique
  · intro changed member
    obtain ⟨query, inSet, rfl⟩ := List.mem_map.mp member
    have before := combines.whole query inSet
    by_cases same : query.key = q.key
    · rw [if_pos same, Query.key_merge, List.filter_append, List.filter_cons,
        if_pos (decide_eq_true same.symm), List.filter_nil]
      exact before.merge same.symm
    · rw [if_neg same, List.filter_append, List.filter_cons,
        if_neg (by simpa using Ne.symm same), List.filter_nil, List.append_nil]
      exact before
  · intro part member
    rcases List.mem_append.mp member with isOld | isNew
    · obtain ⟨query, inSet, same⟩ := combines.complete part isOld
      exact ⟨_, List.mem_map_of_mem inSet, (query.key_ite_merge q).trans same⟩
    · rw [List.mem_singleton] at isNew
      subst isNew
      exact ⟨_, List.mem_map_of_mem isMember, (known.key_ite_merge part).trans sameKey⟩

/-- Adding a query keeps one query for each id and provider. -/
theorem Combines.addQuery {set : QuerysAndParamDefs F} {contributed : List (Query F)}
    (combines : Combines set.querys contributed) (q : Query F) :
    Combines (set.addQuery q).querys (contributed ++ [q]) := by
  simp only [QuerysAndParamDefs.addQuery]
  cases found : set.querys.findIdx? fun query => query.isSame q with
  | none =>
      have absent : ∀ query ∈ set.querys, query.key ≠ q.key := fun query member same => by
        have notSame := List.findIdx?_eq_none_iff.mp found query member
        rw [Query.isSame_iff.mpr same] at notSame
        cases notSame
      exact combines.append absent
  | some index =>
      obtain ⟨less, isSame, _⟩ := List.findIdx?_eq_some_iff_getElem.mp found
      simp only [modify_eq_map combines.unique found]
      exact combines.mergeOne (List.getElem_mem less) (Query.isSame_iff.mp isSame)

/-! ## Merging sets -/

namespace QuerysAndParamDefs

/-- Another set shares no pointer, so that all its queries are copied. -/
theorem foldl_mergeQuery_of_ne {set with_ : ℕ} (different : set ≠ with_)
    (querys withQuerys : List (Query F)) :
    withQuerys.zipIdx.foldl (mergeQuery set with_) querys = querys ++ withQuerys := by
  have copied (entries : List (Query F × ℕ)) (querys : List (Query F)) :
      entries.foldl (mergeQuery set with_) querys = querys ++ entries.map Prod.fst := by
    induction entries generalizing querys with
    | nil => simp
    | cons entry rest ih =>
        have notFound : ((List.range querys.length).find? fun position =>
            decide ((with_, entry.2) = (set, position))) = none := by
          rw [List.find?_eq_none]
          intro position _
          simp [Ne.symm different]
        rw [List.foldl_cons, mergeQuery, notFound, ih]
        simp
  rw [copied, List.zipIdx_map_fst]

/-- A set that is merged with itself finds each pointer, and stays the same. -/
theorem foldl_mergeQuery_self (set : ℕ) (querys : List (Query F)) :
    querys.zipIdx.foldl (mergeQuery set set) querys = querys := by
  have kept (entries : List (Query F × ℕ)) (within : ∀ entry ∈ entries, entry.2 < querys.length) :
      entries.foldl (mergeQuery set set) querys = querys := by
    induction entries with
    | nil => rfl
    | cons entry rest ih =>
        have unchanged : mergeQuery set set querys entry = querys := by
          have merges : (fun query : Query F => query.merge query) = id :=
            funext Query.merge_self
          simp only [mergeQuery, merges, List.modify_id]
          cases found : (List.range querys.length).find? fun position =>
              decide ((set, entry.2) = (set, position)) with
          | some position => rfl
          | none =>
              have less := within entry List.mem_cons_self
              have absent := List.find?_eq_none.mp found entry.2 (List.mem_range.mpr less)
              simp at absent
        rw [List.foldl_cons, unchanged]
        exact ih fun other member => within other (List.mem_cons_of_mem _ member)
  refine kept _ fun entry member => ?_
  have bound := List.snd_lt_of_mem_zipIdx member
  simpa using bound

end QuerysAndParamDefs

/-- Merging with a set that has no id and provider in common gives the union. -/
theorem Combines.merge {querys contributed withQuerys withContributed : List (Query F)}
    (combines : Combines querys contributed) (others : Combines withQuerys withContributed)
    (apart : ∀ query ∈ querys, ∀ other ∈ withQuerys, query.key ≠ other.key) :
    Combines (querys ++ withQuerys) (contributed ++ withQuerys) := by
  constructor
  · rw [List.map_append]
    refine List.Nodup.append combines.unique others.unique ?_
    intro key inQuerys inOthers
    obtain ⟨query, isQuery, rfl⟩ := List.mem_map.mp inQuerys
    obtain ⟨other, isOther, same⟩ := List.mem_map.mp inOthers
    exact apart query isQuery other isOther same.symm
  · intro query member
    rw [List.filter_append]
    rcases List.mem_append.mp member with isOld | isNew
    · rw [filter_key_eq_nil fun part isPart same => apart query isOld part isPart same.symm,
        List.append_nil]
      exact combines.whole query isOld
    · rw [combines.filter_eq_nil fun old isOld => apart old isOld query isNew, List.nil_append,
        filter_key_eq others.unique isNew]
      exact isUnion_self query
  · intro part member
    rcases List.mem_append.mp member with isOld | isNew
    · obtain ⟨query, inSet, same⟩ := combines.complete part isOld
      exact ⟨query, List.mem_append_left _ inSet, same⟩
    · exact ⟨part, List.mem_append_right _ isNew, rfl⟩

/-- Merging a set with itself adds nothing. -/
theorem Combines.merge_self {querys contributed : List (Query F)}
    (combines : Combines querys contributed) : Combines querys (contributed ++ querys) := by
  refine ⟨combines.unique, fun query member => ?_, fun part member => ?_⟩
  · have merged := (combines.whole query member).merge rfl
    rw [Query.merge_self] at merged
    rw [List.filter_append, filter_key_eq combines.unique member]
    exact merged
  · rcases List.mem_append.mp member with isOld | isNew
    · exact combines.complete part isOld
    · exact ⟨part, isNew, rfl⟩

/-! ## The runs -/

namespace QuerySets

/-- Every set combines what has been added or merged in. -/
def Combined (state : QuerySets F) : Prop :=
  ∀ set, Combines (state.sets set).querys (state.contributed set)

/-- Two sets are merged that have no id and provider in common, or a set with itself. -/
def Apart (state : QuerySets F) : SetOperation F → Prop
  | .addQuery _ _ => True
  | .merge set with_ => set = with_ ∨
      ∀ query ∈ (state.sets set).querys, ∀ other ∈ (state.sets with_).querys,
        query.key ≠ other.key

/-- No operation adds parameter definitions. -/
def Plain (state : QuerySets F) : Prop := ∀ set, (state.sets set).params.defs = ∅

/-- The right operand of a merge is unchanged. -/
def RightUnchanged (state : QuerySets F) : Prop :=
  ∀ set with_, (state.step (.merge set with_)).sets with_ = state.sets with_

theorem plain_step {state : QuerySets F} (plain : state.Plain) (operation : SetOperation F) :
    (state.step operation).Plain := by
  intro other
  cases operation with
  | addQuery set q =>
      simp only [step, Function.update_apply]
      split
      · simp only [QuerysAndParamDefs.addQuery]
        split
        · exact plain set
        · exact plain set
      · exact plain other
  | merge set with_ =>
      simp only [step, Function.update_apply]
      split
      · simp only [QuerysAndParamDefs.merge, ParamDefList.merge, plain with_]
        exact plain set
      · exact plain other

theorem rightUnchanged_of_plain {state : QuerySets F} (plain : state.Plain) :
    state.RightUnchanged := by
  intro set with_
  simp only [step, Function.update_apply]
  split
  · rename_i same
    subst same
    simp only [QuerysAndParamDefs.merge, ParamDefList.merge, plain with_,
      QuerysAndParamDefs.foldl_mergeQuery_self]
    rfl
  · rfl

theorem combined_step {state : QuerySets F} (combined : state.Combined)
    {operation : SetOperation F} (apart : state.Apart operation) :
    (state.step operation).Combined := by
  intro other
  cases operation with
  | addQuery set q =>
      simp only [step, Function.update_apply]
      split
      · exact (combined set).addQuery q
      · exact combined other
  | merge set with_ =>
      simp only [step, Function.update_apply]
      split
      · simp only [QuerysAndParamDefs.merge]
        rcases eq_or_ne set with_ with rfl | different
        · rw [QuerysAndParamDefs.foldl_mergeQuery_self]
          exact (combined set).merge_self
        · rw [QuerysAndParamDefs.foldl_mergeQuery_of_ne different]
          exact (combined set).merge (combined with_) (apart.resolve_left different)
      · exact combined other

/-- A merge that finds an id and a provider in both sets makes a second query for them. -/
theorem apart_of_combined_step {state : QuerySets F} {operation : SetOperation F}
    (combined : (state.step operation).Combined) : state.Apart operation := by
  cases operation with
  | addQuery set q => trivial
  | merge set with_ =>
      refine or_iff_not_imp_left.mpr fun different query member other isOther same => ?_
      have unique := (combined set).unique
      simp only [step, Function.update_self, QuerysAndParamDefs.merge,
        QuerysAndParamDefs.foldl_mergeQuery_of_ne different, List.map_append] at unique
      exact List.disjoint_of_nodup_append unique (List.mem_map_of_mem member)
        (same ▸ List.mem_map_of_mem isOther)

/-- The sets combine what is added and merged in, in every state of a run, exactly when no step
of the run merges two sets with an id and a provider in common. -/
theorem combined_iff (wciProtocol : ℤ) (operations : List (SetOperation F)) :
    (∀ earlier later, operations = earlier ++ later →
      (after wciProtocol earlier).Combined ∧ (after wciProtocol earlier).RightUnchanged) ↔
    Runs.EachStep step Apart (initial wciProtocol) operations := by
  have plainAfter (operations : List (SetOperation F)) :
      (after wciProtocol operations).Plain := by
    induction operations using List.reverseRecOn with
    | nil => exact fun _ => rfl
    | append_singleton earlier operation ih =>
        simp only [after, Runs.run_append, Runs.run_cons, Runs.run_nil] at ih ⊢
        exact plain_step ih operation
  constructor
  · intro every
    refine Runs.eachStep_iff_forall_split.mpr fun earlier operation later split => ?_
    have behind := (every (earlier ++ [operation]) later (by rw [split]; simp)).1
    simp only [after, Runs.run_append, Runs.run_cons, Runs.run_nil] at behind
    exact apart_of_combined_step behind
  · intro each earlier later split
    rw [split, Runs.eachStep_append] at each
    refine ⟨?_, rightUnchanged_of_plain (plainAfter earlier)⟩
    exact each.1.invariant Combined (fun state operation combined apart =>
      combined_step combined apart) fun _ => combines_empty

/-- A query of two sets. -/
def temperatures : Query ℚ :=
  { Query.new (Bytes.str "forecast") (Bytes.str "arome") with querys := [Bytes.str "SELECT"] }

/-- The merged set has two queries with the same id and provider. -/
theorem not_combined_commonProvider :
    ¬∀ (wciProtocol : ℤ) (operations : List (SetOperation ℚ)),
      (after wciProtocol operations).Combined := by
  intro always
  have unique := (always 5 [.addQuery 0 temperatures, .addQuery 1 temperatures, .merge 0 1]
    0).unique
  revert unique
  decide +kernel

end QuerySets

end Wdb2ts
