import Wdb2ts.ConfigSafety

/-!
# Rejected query definitions

A query definition without an id, or with an id that is taken, is reported and not added.  Its
queries are read all the same, and they are added to the definition that the iterator points to:
the first definition with the id.
-/

namespace Wdb2ts

namespace config

variable {F : Type}

/-- The name that an event opens is the name of an element. -/
def Event.Named : Event → Prop
  | .startElement fullname _ => Bytes.chr '/' ∉ fullname
  | _ => True

theorem Content.named (content : Content) : ∀ event ∈ content.events, event.Named := by
  induction content with
  | nil => simp [events]
  | text chars rest ih => simpa [events, Event.Named] using ih
  | element name attributes children rest ihChildren ihRest =>
      intro event member
      rw [events, List.mem_cons, List.mem_append, List.mem_cons] at member
      rcases member with rfl | member | rfl | member
      · exact name.2
      · exact ihChildren event member
      · trivial
      · exact ihRest event member

/-- The end of another element does not leave an element. -/
theorem not_inside_of_tail {wanted : Place} {xmlState : List Bytes} (noSlash : NoSlash xmlState)
    (other : place xmlState ≠ some wanted) (outside : ¬Inside wanted xmlState.tail) :
    ¬Inside wanted xmlState := by
  cases xmlState with
  | nil => exact outside
  | cons name rest =>
      rw [inside_cons_iff noSlash, not_or]
      exact ⟨other, outside⟩

namespace View

theorem step_end_xmlState (view : View) (name : Bytes) :
    (view.step (.endElement name)).xmlState = view.xmlState.tail := by
  rw [step, end_.eq_def]
  split <;> rfl

/-- The view stays as it is between two events of a document. -/
theorem Between.step {view : View} (between : view.Between) {event : Event} (named : event.Named) :
    (view.step event).Between := by
  cases event with
  | startElement fullname attributes => exact between.start ⟨fullname, named⟩ attributes
  | characters buf => exact between.congr rfl rfl rfl
  | endElement name =>
      have popped := view.step_end_xmlState name
      constructor
      · rw [popped]
        exact fun other member => between.noSlash other (List.mem_of_mem_tail member)
      · intro outside
        rw [popped] at outside
        rw [View.step, end_request]
        split
        · rfl
        · next other => exact between.request (not_inside_of_tail between.noSlash other outside)
      · intro outside
        rw [popped] at outside
        rw [View.step, end_version]
        split
        · rfl
        · next other => exact between.version (not_inside_of_tail between.noSlash other outside)

end View

namespace ConfigParser

variable {surroundings : Surroundings F} {parser : ConfigParser F}

/-! ## The iterator between the events of a document -/

theorem itCurrentQueryDef_of_bind_withParamDefs
    {handler : Except Failure (Bytes × ParamDefState F)} {next : ConfigParser F}
    (returns : (do return parser.withParamDefs (← handler)) = Except.ok next) :
    next.itCurrentQueryDef = parser.itCurrentQueryDef := by
  cases handler with
  | error failure => cases returns
  | ok read =>
      cases returns
      rfl

/-- Only the start of a query definition moves the iterator. -/
theorem itCurrentQueryDef_start [Floats F] {attributes : AttributeMap} {place : Option Place}
    {next : ConfigParser F} (returns : start surroundings attributes parser place = .ok next)
    (other : place ≠ some .queryDef) : next.itCurrentQueryDef = parser.itCurrentQueryDef := by
  rw [start.eq_def] at returns
  split at returns
  case h_6 => exact absurd rfl other
  case h_10 | h_11 | h_12 | h_13 => exact itCurrentQueryDef_of_bind_withParamDefs returns
  all_goals cases returns
  case h_1 =>
      dsimp only [doInclude]
      split
      · rfl
      · split <;> rfl
  case h_2 =>
      dsimp only [doRequest]
      split
      · rfl
      · split <;> rfl
  case h_3 =>
      dsimp only [doRequestDefaultActionParam]
      split <;> rfl
  case h_4 =>
      dsimp only [doRequestVersion]
      split <;> rfl
  case h_5 =>
      dsimp only [doVersionActionParam]
      split <;> rfl
  all_goals rfl

theorem itCurrentQueryDef_endQuery {buf : Bytes} {next : ConfigParser F}
    (returns : parser.endQuery buf = .ok next) :
    next.itCurrentQueryDef = parser.itCurrentQueryDef := by
  dsimp only [endQuery] at returns
  split at returns
  · cases returns
    rfl
  · split at returns <;> cases returns <;> rfl

/-- Only the end of a query definition moves the iterator, which is then the end iterator. -/
theorem itCurrentQueryDef_end [Floats F] {buf : Bytes} {place : Option Place}
    {next : ConfigParser F} (returns : parser.end_ buf place = .ok next) :
    next.itCurrentQueryDef =
      if place = some .queryDef then .end_ else parser.itCurrentQueryDef := by
  rw [end_.eq_def] at returns
  split at returns
  case h_1 =>
      rw [endVersion] at returns
      split at returns <;> cases returns <;> rfl
  case h_2 =>
      rw [endRequest] at returns
      split at returns <;> cases returns
      rfl
  case h_3 =>
      cases returns
      rfl
  case h_4 => exact itCurrentQueryDef_endQuery returns
  case h_5 =>
      rw [endParamDefs.eq_def] at returns
      split at returns
      · cases returns
        rfl
      · split at returns <;> cases returns
        rfl
      · split at returns <;> cases returns
        rfl
  case h_6 =>
      cases returns
      rfl
  case h_7 notQueryDef _ _ _ =>
      cases returns
      rw [if_neg]
      assumption

theorem itCurrentQueryDef_endElement [Floats F] {next : ConfigParser F}
    (returns : parser.endElement = .ok next) :
    next.itCurrentQueryDef =
      if place parser.xmlState = some .queryDef then .end_ else parser.itCurrentQueryDef := by
  rw [endElement] at returns
  cases result : end_ parser.chardata { parser with inChardata := false, chardata := [] }
      (place parser.xmlState) with
  | error failure =>
      rw [result] at returns
      cases returns
  | ok ended =>
      rw [result] at returns
      cases returns
      have moved := itCurrentQueryDef_end result
      exact moved

/-! ## Runs between the events of a document -/

/-- A run that returns has handled its first event. -/
theorem exists_of_run_cons [Floats F] {event : Event} {rest : List Event} {last : ConfigParser F}
    (returns : Runs.run (next surroundings) (.ok parser) (event :: rest) = .ok last) :
    ∃ reached, parser.handle surroundings event = .ok reached ∧
      Runs.run (next surroundings) (.ok reached) rest = .ok last := by
  rw [Runs.run_cons] at returns
  have step : next surroundings (.ok parser) event = parser.handle surroundings event := rfl
  rw [step] at returns
  cases handled : parser.handle surroundings event with
  | error failure =>
      rw [handled, run_error] at returns
      cases returns
  | ok reached =>
      rw [handled] at returns
      exact ⟨reached, rfl, returns⟩

/-- A run refines the run of the automaton. -/
theorem view_run [Floats F] {events : List Event} {last : ConfigParser F}
    (returns : Runs.run (next surroundings) (.ok parser) events = .ok last) :
    last.view = Runs.run View.step parser.view events := by
  induction events generalizing parser with
  | nil =>
      cases returns
      rfl
  | cons event rest ih =>
      obtain ⟨reached, handled, later⟩ := exists_of_run_cons returns
      rw [ih later, view_handle handled, Runs.run_cons]

/-- A parser between two events of a document, where the iterator points to a query definition only
inside one. -/
structure Placed (parser : ConfigParser F) : Prop where
  between : parser.view.Between
  iterator : ¬Inside .queryDef parser.xmlState → ∀ id, parser.itCurrentQueryDef ≠ .at_ id

theorem placed_create [Floats F] : (create : ConfigParser F).Placed where
  between := View.ready_create.toBetween
  iterator := fun _ _ => nofun

/-- The start of an element puts its name in front of the state. -/
theorem xmlState_of_start [Floats F] {name : Bytes} {attributes : AttributeMap}
    {next : ConfigParser F}
    (returns : parser.handle surroundings (.startElement name attributes) = .ok next) :
    next.xmlState = name :: parser.xmlState :=
  (congrArg View.xmlState (view_handle returns)).trans
    (View.step_start_xmlState name attributes)

/-- The end of an element takes the first name off the state. -/
theorem xmlState_of_end [Floats F] {name : Bytes} {next : ConfigParser F}
    (returns : parser.handle surroundings (.endElement name) = .ok next) :
    next.xmlState = parser.xmlState.tail :=
  (congrArg View.xmlState (view_handle returns)).trans (parser.view.step_end_xmlState name)

/-- What the events of a content leave of the view. -/
theorem through_of_run [Floats F] (between : parser.view.Between) {content : Content}
    {reached : ConfigParser F}
    (returns : Runs.run (next surroundings) (.ok parser) content.events = .ok reached) :
    View.Through content parser.view reached.view := by
  rw [view_run returns]
  exact between.through content

theorem Placed.handle [Floats F] (placed : parser.Placed) {event : Event} (named : event.Named)
    {next : ConfigParser F} (returns : parser.handle surroundings event = .ok next) :
    next.Placed := by
  have view := view_handle returns
  have between : next.view.Between := view ▸ placed.between.step named
  refine ⟨between, fun outside => ?_⟩
  cases event with
  | startElement fullname attributes =>
      have state := xmlState_of_start returns
      have noSlash : NoSlash (fullname :: parser.xmlState) := state ▸ between.noSlash
      rw [state, inside_cons_iff noSlash, not_or] at outside
      rw [itCurrentQueryDef_start returns outside.1]
      exact placed.iterator outside.2
  | endElement name =>
      rw [xmlState_of_end returns] at outside
      rw [itCurrentQueryDef_endElement returns]
      split
      · exact fun _ => nofun
      · next other =>
          exact placed.iterator (not_inside_of_tail placed.between.noSlash other outside)
  | characters buf =>
      cases returns
      exact placed.iterator outside

theorem Placed.run [Floats F] (placed : parser.Placed) {events : List Event}
    (named : ∀ event ∈ events, event.Named) {last : ConfigParser F}
    (returns : Runs.run (next surroundings) (.ok parser) events = .ok last) : last.Placed := by
  induction events generalizing parser with
  | nil =>
      cases returns
      exact placed
  | cons event rest ih =>
      obtain ⟨reached, handled, later⟩ := exists_of_run_cons returns
      exact ih (placed.handle (named event List.mem_cons_self) handled)
        (fun other member => named other (List.mem_cons_of_mem _ member)) later

/-! ## Events inside a query definition -/

/-- The map of the query definitions behind a query, which goes to the definition the iterator
points to. -/
def push (iterator : QueryDefIterator) (querys : SortedMap Bytes Query) (element : QueryElement) :
    SortedMap Bytes Query :=
  match iterator with
  | .at_ id => querys.upsert id fun query => (query.getD Query.create).push_back element
  | _ => querys

theorem foldl_push_end (querys : SortedMap Bytes Query) (added : List QueryElement) :
    added.foldl (push .end_) querys = querys := by
  induction added with
  | nil => rfl
  | cons element rest ih => exact ih

/-- The definition behind its queries. -/
theorem find?_foldl_push {querys : SortedMap Bytes Query} {id : Bytes} {query : Query}
    (found : querys.find? id = some query) (added : List QueryElement) :
    (added.foldl (push (.at_ id)) querys).find? id =
      some { query with querys := query.querys ++ added } := by
  induction added generalizing querys query with
  | nil => rw [List.foldl_nil, List.append_nil, found]
  | cons element rest ih =>
      have pushed : (push (.at_ id) querys element).find? id = some (query.push_back element) := by
        rw [push, SortedMap.find?_upsert_self, found, Option.getD_some]
      rw [List.foldl_cons, ih pushed]
      simp [Query.push_back]

/-- A definition stays as it is when nothing is pushed to it. -/
theorem foldl_push_eq_self_iff {querys : SortedMap Bytes Query} {id : Bytes}
    (taken : querys.contains id = true) (added : List QueryElement) :
    added.foldl (push (.at_ id)) querys = querys ↔ added = [] := by
  constructor
  · intro same
    obtain ⟨query, found⟩ := Option.isSome_iff_exists.mp taken
    have after := find?_foldl_push found added
    rw [same, found, Option.some.injEq] at after
    exact List.self_eq_append_right.mp (congrArg Query.querys after)
  · rintro rfl
    rfl

/-- What a number of queries with a text make of the query definitions: they are pushed, or they
cannot be because nothing is assigned to the iterator. -/
def Pushes (count : ℕ) (iterator : QueryDefIterator) (querys : SortedMap Bytes Query) :
    Except Failure (ConfigParser F) → Prop
  | .error _ => iterator = .uninitialised ∧ count ≠ 0
  | .ok after =>
      (iterator = .uninitialised → count = 0) ∧ after.itCurrentQueryDef = iterator ∧
        ∃ added : List QueryElement, added.length = count ∧
          after.config.querys = added.foldl (push iterator) querys

theorem pushes_nothing (parser : ConfigParser F) :
    Pushes 0 parser.itCurrentQueryDef parser.config.querys (.ok parser) :=
  ⟨fun _ => rfl, rfl, [], rfl, rfl⟩

/-- Queries that are pushed behind others. -/
theorem Pushes.run [Floats F] {count later : ℕ} {iterator : QueryDefIterator}
    {querys : SortedMap Bytes Query} {result : Except Failure (ConfigParser F)}
    (pushes : Pushes count iterator querys result) {events : List Event}
    (behind : ∀ reached, result = .ok reached →
      Pushes later reached.itCurrentQueryDef reached.config.querys
        (Runs.run (next surroundings) (.ok reached) events)) :
    Pushes (count + later) iterator querys (Runs.run (next surroundings) result events) := by
  cases result with
  | error failure =>
      rw [run_error]
      exact ⟨pushes.1, fun none => pushes.2 (Nat.eq_zero_of_add_eq_zero_right none)⟩
  | ok reached =>
      obtain ⟨before, kept, added, length, querysAfter⟩ := pushes
      have pushed := behind reached rfl
      rw [kept, querysAfter] at pushed
      cases last : Runs.run (next surroundings) (.ok reached) events with
      | error failure =>
          rw [last] at pushed
          exact ⟨pushed.1, fun none => pushed.2 (Nat.eq_zero_of_add_eq_zero_left none)⟩
      | ok after =>
          rw [last] at pushed
          obtain ⟨beforeLater, keptLater, addedLater, lengthLater, querysLater⟩ := pushed
          refine ⟨fun nothing => ?_, keptLater, added ++ addedLater, ?_, ?_⟩
          · rw [before nothing, beforeLater nothing]
          · rw [List.length_append, length, lengthLater]
          · rw [List.foldl_append, querysLater]

/-- Queries leave the query definitions alone when there are none with a text, or when the iterator
is the end iterator. -/
theorem Pushes.keeps_iff {count : ℕ} {iterator : QueryDefIterator}
    {querys : SortedMap Bytes Query} {result : Except Failure (ConfigParser F)}
    (pushes : Pushes count iterator querys result)
    (taken : ∀ id, iterator = .at_ id → querys.contains id = true) :
    (∃ after, result = .ok after ∧ after.config.querys = querys) ↔
      count = 0 ∨ iterator = .end_ := by
  cases result with
  | error failure =>
      obtain ⟨rfl, queries⟩ := pushes
      simp [queries]
  | ok after =>
      obtain ⟨unassigned, _, added, rfl, pushed⟩ := pushes
      have same : (∃ last, Except.ok after = (.ok last : Except Failure (ConfigParser F)) ∧
          last.config.querys = querys) ↔ added.foldl (push iterator) querys = querys := by
        simp [pushed]
      rw [same, List.length_eq_zero_iff]
      cases iterator with
      | uninitialised =>
          have none := List.length_eq_zero_iff.mp (unassigned rfl)
          simp [none]
      | end_ => simp [foldl_push_end]
      | at_ id => simp [foldl_push_eq_self_iff (taken id rfl)]

end ConfigParser

/-- The only handled elements in a query definition are its queries. -/
theorem query_of_inside {name : Bytes} {xmlState : List Bytes} {found : Place}
    (noSlash : NoSlash (name :: xmlState)) (inside : Inside .queryDef xmlState)
    (isFound : place (name :: xmlState) = some found) : found = .query := by
  have only : ∀ entry ∈ places, Inside .queryDef entry.2.xmlState.tail → entry.2 = .query := by
    decide +kernel
  obtain ⟨entry, member, rfl⟩ := List.mem_map.mp (mem_places found)
  have state := (place_eq_some_iff noSlash entry.2).mp isFound
  apply only entry member
  rwa [← state]

/-- The number of the queries with a text in a content below a state. -/
def Content.writtenQueries (xmlState : List Bytes) (content : Content) : ℕ :=
  (content.elements .query xmlState).countP fun query =>
    !(queryText (query.2.trailingText [])).isEmpty

theorem Content.writtenQueries_element (xmlState : List Bytes) (name : ElementName)
    (attributes : AttributeMap) (children rest : Content) :
    (element name attributes children rest).writtenQueries xmlState =
      children.writtenQueries (name :: xmlState) +
        (if place (name :: xmlState) = some .query ∧ queryText (children.trailingText []) ≠ []
          then 1 else 0) + rest.writtenQueries xmlState := by
  rw [writtenQueries, elements, List.countP_append, List.countP_append]
  by_cases isQuery : place (name :: xmlState) = some .query
  · rw [if_pos isQuery, List.countP_singleton, writtenQueries, writtenQueries]
    simp [isQuery]
    omega
  · rw [if_neg isQuery, if_neg (fun both => isQuery both.1), writtenQueries, writtenQueries]
    simp

namespace ConfigParser

variable {surroundings : Surroundings F} {parser : ConfigParser F}

/-- The start of an element in a query definition. -/
theorem handle_start_inside [Floats F] (surroundings : Surroundings F) {name : Bytes}
    (attributes : AttributeMap) (noSlash : NoSlash (name :: parser.xmlState))
    (inside : Inside .queryDef parser.xmlState) :
    ∃ started, parser.handle surroundings (.startElement name attributes) = .ok started ∧
      started.itCurrentQueryDef = parser.itCurrentQueryDef ∧
        started.config.querys = parser.config.querys := by
  rw [handle, startElement]
  cases found : place (name :: parser.xmlState) with
  | none => exact ⟨_, rfl, rfl, rfl⟩
  | some found =>
      obtain rfl := query_of_inside noSlash inside ‹_›
      exact ⟨_, rfl, rfl, rfl⟩

/-- The end of an element in a query definition. -/
theorem pushes_end_inside [Floats F] {name : Bytes} {xmlState : List Bytes}
    (state : parser.xmlState = name :: xmlState) (noSlash : NoSlash (name :: xmlState))
    (inside : Inside .queryDef xmlState) :
    Pushes
      (if place (name :: xmlState) = some .query ∧ queryText parser.chardata ≠ [] then 1 else 0)
      parser.itCurrentQueryDef parser.config.querys parser.endElement := by
  rw [endElement, state]
  cases found : place (name :: xmlState) with
  | none => exact pushes_nothing parser
  | some found =>
      obtain rfl := query_of_inside noSlash inside ‹_›
      dsimp only [end_, endQuery]
      cases blank : (queryText parser.chardata).isEmpty with
      | true =>
          rw [List.isEmpty_iff] at blank
          simp only [blank, ne_eq, not_true_eq_false, and_false]
          exact pushes_nothing parser
      | false =>
          have text : queryText parser.chardata ≠ [] := by
            rintro none
            rw [none] at blank
            cases blank
          simp only [text, ne_eq, not_false_eq_true, and_true, if_true]
          cases iterator : parser.itCurrentQueryDef with
          | uninitialised => exact ⟨rfl, one_ne_zero⟩
          | end_ =>
              have element : QueryElement :=
                ⟨queryText parser.chardata, parser.currentQueryProbe,
                  parser.currentQueryStopIfData, parser.currentQueryWdbdb,
                  parser.currentQueryPrognosisLengthSeconds⟩
              refine ⟨?_, rfl, [element], rfl, rfl⟩
              intro uninitialised
              cases uninitialised
          | at_ id =>
              refine ⟨?_, rfl, [_], rfl, rfl⟩
              intro uninitialised
              cases uninitialised

/-- The end of an element in a query definition pushes the text of its content when it is a
query. -/
theorem pushes_end_content [Floats F] {name : ElementName} {attributes : AttributeMap}
    {children : Content} {started reached : ConfigParser F}
    (handled : parser.handle surroundings (.startElement name attributes) = .ok started)
    (noSlash : NoSlash (name.1 :: parser.xmlState)) (inside : Inside .queryDef parser.xmlState)
    (through : View.Through children started.view reached.view) :
    Pushes
      (if place (name.1 :: parser.xmlState) = some .query ∧
        queryText (children.trailingText []) ≠ [] then 1 else 0)
      reached.itCurrentQueryDef reached.config.querys reached.endElement := by
  have state : reached.xmlState = name.1 :: parser.xmlState :=
    through.xmlState.trans (xmlState_of_start handled)
  have text : place (name.1 :: parser.xmlState) = some .query →
      reached.chardata = children.trailingText [] := by
    intro isQuery
    have cleared : started.view.chardata = [] := by
      rw [view_handle handled, View.step, show parser.view.xmlState = parser.xmlState from rfl,
        isQuery]
      rfl
    have clean := (through.clean fun _ => cleared).2
    rwa [cleared] at clean
  have ends := pushes_end_inside state noSlash inside
  by_cases isQuery : place (name.1 :: parser.xmlState) = some .query
  · rwa [text isQuery] at ends
  · rw [if_neg fun both => isQuery both.1] at ends ⊢
    exact ends

/-- The queries with a text in a query definition are pushed, and nothing else is done to the query
definitions. -/
theorem pushes_content [Floats F] (surroundings : Surroundings F) (between : parser.view.Between)
    (inside : Inside .queryDef parser.xmlState) (content : Content) :
    Pushes (content.writtenQueries parser.xmlState) parser.itCurrentQueryDef parser.config.querys
      (Runs.run (next surroundings) (.ok parser) content.events) := by
  induction content generalizing parser with
  | nil => exact pushes_nothing parser
  | text chars rest ih => exact ih (between.congr rfl rfl rfl) inside
  | element name attributes children rest ihChildren ihRest =>
      have noSlash := between.noSlash_cons name
      obtain ⟨started, handled, keptIterator, keptQuerys⟩ :=
        handle_start_inside surroundings attributes noSlash inside
      have startedState := xmlState_of_start handled
      have startedBetween : started.view.Between :=
        view_handle handled ▸ between.start name attributes
      have insideIt : Inside .queryDef started.xmlState :=
        startedState ▸ (inside_cons_iff noSlash).mpr (Or.inr inside)
      have inner := ihChildren startedBetween insideIt
      rw [startedState] at inner
      rw [Content.writtenQueries_element, Content.events, Runs.run_cons, Runs.run_append,
        Runs.run_cons]
      have first : next surroundings (.ok parser) (.startElement name attributes) = .ok started :=
        handled
      rw [first, add_assoc, ← keptIterator, ← keptQuerys, ← Runs.run_cons]
      apply inner.run
      intro reached returns
      have through := through_of_run startedBetween returns
      rw [Runs.run_cons]
      apply (pushes_end_content handled noSlash inside through).run
      intro last handledEnd
      have handledLast : reached.handle surroundings (.endElement name) = .ok last := handledEnd
      have lastState : last.xmlState = parser.xmlState := by
        rw [xmlState_of_end handledLast, show reached.xmlState = started.xmlState from
          through.xmlState, startedState, List.tail_cons]
      have reachedBetween : reached.view.Between :=
        startedBetween.congr through.xmlState through.request through.version
      have lastBetween : last.view.Between :=
        view_handle handledLast ▸ reachedBetween.step trivial
      have rests := ihRest lastBetween (lastState ▸ inside)
      rwa [lastState] at rests

/-- The start of a query definition that is rejected. -/
theorem handle_start_rejected [Floats F] (surroundings : Surroundings F) {name : Bytes}
    {attributes : AttributeMap} (isQueryDef : place (name :: parser.xmlState) = some .queryDef)
    (rejected : View.has attributes "id" = false ∨
      parser.config.querys.contains (getAttr attributes (Bytes.str "id") []).2 = true) :
    ∃ started, parser.handle surroundings (.startElement name attributes) = .ok started ∧
      started.config.querys = parser.config.querys ∧
        started.itCurrentQueryDef =
          if View.has attributes "id" then .at_ (getAttr attributes (Bytes.str "id") []).2
          else parser.itCurrentQueryDef := by
  rw [handle, startElement, isQueryDef]
  refine ⟨_, rfl, ?_⟩
  dsimp only [doQueryDef]
  cases missing : (getAttr attributes (Bytes.str "id") []).2.isEmpty with
  | true => simp [View.has, missing, report]
  | false =>
      have taken := rejected.resolve_left (by simp [View.has, missing])
      simp [View.has, missing, taken, report]

/-- The end of a query definition leaves the query definitions alone. -/
theorem handle_end_queryDef [Floats F] (surroundings : Surroundings F) (name : Bytes)
    (isQueryDef : parser.xmlState = queryDefState) :
    ∃ after, parser.handle surroundings (.endElement name) = .ok after ∧
      after.config.querys = parser.config.querys := by
  rw [handle, endElement, isQueryDef, show place queryDefState = some .queryDef from
    place_xmlState .queryDef]
  exact ⟨_, rfl, rfl⟩

end ConfigParser

/-! ## Rejected elements -/

/-- A query definition in a document that is rejected when the parser reads it. -/
structure RejectedQueryDef [Floats F] (surroundings : Surroundings F) (document : Document) where
  before : List Event
  name : ElementName
  attributes : AttributeMap
  children : Content
  behind : List Event
  split : document.events =
    before ++ .startElement name attributes :: (children.events ++ .endElement name :: behind)
  parser : ConfigParser F
  reached : Runs.run (ConfigParser.next surroundings) (.ok ConfigParser.create) before = .ok parser
  isQueryDef : place (name :: parser.xmlState) = some .queryDef
  rejected : View.has attributes "id" = false ∨
    parser.config.querys.contains (getAttr attributes (Bytes.str "id") []).2 = true

namespace RejectedQueryDef

variable [Floats F] {surroundings : Surroundings F} {document : Document}

/-- The events of the element. -/
def events (element : RejectedQueryDef surroundings document) : List Event :=
  .startElement element.name element.attributes ::
    (element.children.events ++ [.endElement element.name])

/-- Behind its end the query definitions are what they were in front of the element. -/
def KeepsQuerys (element : RejectedQueryDef surroundings document) : Prop :=
  ∃ after, Runs.run (ConfigParser.next surroundings) (.ok element.parser) element.events =
    .ok after ∧ after.config.querys = element.parser.config.querys

/-- The queries of the element have no text. -/
def NoQuerys (element : RejectedQueryDef surroundings document) : Prop :=
  ∀ query ∈ element.children.elements .query queryDefState,
    ∀ byte ∈ query.2.trailingText [], byte ∈ miutil.blanks

theorem placed (element : RejectedQueryDef surroundings document) : element.parser.Placed := by
  apply ConfigParser.placed_create.run (fun event member => ?_) element.reached
  apply document.content.named
  rw [show document.content.events = document.events from rfl, element.split]
  exact List.mem_append_left _ member

theorem noQuerys_iff (element : RejectedQueryDef surroundings document) :
    element.NoQuerys ↔ element.children.writtenQueries queryDefState = 0 := by
  have blank : ∀ query : AttributeMap × Content,
      (!(queryText (query.2.trailingText [])).isEmpty) = true ↔
        ¬∀ byte ∈ query.2.trailingText [], byte ∈ miutil.blanks := by
    intro query
    rw [← queryText_eq_nil_iff, ← List.isEmpty_iff, Bool.not_eq_true', Bool.not_eq_true]
  rw [Content.writtenQueries, List.countP_eq_zero]
  simp only [blank, not_not]
  rfl

/-- Only the events between its start and its end can change the query definitions. -/
theorem keepsQuerys_iff_children (element : RejectedQueryDef surroundings document)
    {started : ConfigParser F}
    (handled : element.parser.handle surroundings
      (.startElement element.name element.attributes) = .ok started)
    (between : started.view.Between) (state : started.xmlState = queryDefState) :
    element.KeepsQuerys ↔ ∃ inner,
      Runs.run (ConfigParser.next surroundings) (.ok started) element.children.events = .ok inner ∧
        inner.config.querys = element.parser.config.querys := by
  have first : ConfigParser.next surroundings (.ok element.parser)
      (.startElement element.name element.attributes) = .ok started := handled
  rw [KeepsQuerys, events, Runs.run_cons, Runs.run_append, first, Runs.run_cons, Runs.run_nil]
  cases returns : Runs.run (ConfigParser.next surroundings) (.ok started)
      element.children.events with
  | error failure =>
      rw [show ConfigParser.next surroundings (.error failure) (.endElement element.name) =
        .error failure from rfl]
  | ok inner =>
      have innerState : inner.xmlState = queryDefState :=
        (ConfigParser.through_of_run between returns).xmlState.trans state
      obtain ⟨after, ended, same⟩ :=
        ConfigParser.handle_end_queryDef surroundings element.name innerState
      rw [show ConfigParser.next surroundings (.ok inner) (.endElement element.name) = .ok after
        from ended]
      simp [same]

/-- A rejected query definition leaves the query definitions as they are exactly when no query in it
has a text, or when it has no id and something is assigned to the iterator. -/
theorem keepsQuerys_iff (element : RejectedQueryDef surroundings document) :
    element.KeepsQuerys ↔ element.NoQuerys ∨
      (View.has element.attributes "id" = false ∧
        element.parser.itCurrentQueryDef ≠ .uninitialised) := by
  have placed := element.placed
  have noSlash := placed.between.noSlash_cons element.name
  have sameState := (place_eq_some_iff noSlash .queryDef).mp element.isQueryDef
  have outside := not_inside_of_place noSlash element.isQueryDef
  obtain ⟨started, handled, querys, iterator⟩ :=
    ConfigParser.handle_start_rejected surroundings element.isQueryDef element.rejected
  have startedState : started.xmlState = queryDefState :=
    (ConfigParser.xmlState_of_start handled).trans sameState
  have startedBetween : started.view.Between :=
    ConfigParser.view_handle handled ▸ placed.between.start element.name element.attributes
  have pushes := ConfigParser.pushes_content surroundings startedBetween
    (startedState ▸ List.suffix_refl _) element.children
  rw [startedState, querys] at pushes
  have taken : ∀ id, started.itCurrentQueryDef = .at_ id →
      element.parser.config.querys.contains id = true := by
    intro id there
    rw [iterator] at there
    split at there
    · next named =>
        cases there
        exact element.rejected.resolve_left (ne_true_of_eq_false · named)
    · exact absurd there (placed.iterator outside id)
  rw [element.keepsQuerys_iff_children handled startedBetween startedState,
    pushes.keeps_iff taken, element.noQuerys_iff, iterator]
  apply or_congr Iff.rfl
  have notAt := placed.iterator outside
  cases View.has element.attributes "id" with
  | true => simp
  | false => cases found : element.parser.itCurrentQueryDef <;> simp_all

end RejectedQueryDef

/-- `<wdb2ts><querydefs><querydef id="a"><query>A</query></querydef><querydef id="a">
<query>B</query></querydef></querydefs></wdb2ts>`. -/
def queryDefTwice : Document :=
  let queryDef (text : Bytes) (rest : Content) : Content :=
    .element (elementName "querydef" noSlash_querydef)
      (SortedMap.ofList [(Bytes.str "id", Bytes.str "a")])
      (.element (elementName "query" noSlash_query) ∅ (.text text .nil) .nil) rest
  { name := elementName "wdb2ts" noSlash_wdb2ts
    attributes := ∅
    children :=
      .element (elementName "querydefs" noSlash_querydefs) ∅
        (queryDef (Bytes.str "A") (queryDef (Bytes.str "B") .nil)) .nil }

/-- The query that is written in the second definition becomes one of the first. -/
theorem queryDefTwice_not_keepsQuerys :
    ∃ element : RejectedQueryDef noFiles queryDefTwice, ¬element.KeepsQuerys := by
  refine ⟨{ before := queryDefTwice.events.take 7
            name := elementName "querydef" noSlash_querydef
            attributes := SortedMap.ofList [(Bytes.str "id", Bytes.str "a")]
            children :=
              .element (elementName "query" noSlash_query) ∅ (.text (Bytes.str "B") .nil) .nil
            behind := queryDefTwice.events.drop 12
            split := rfl
            parser := _
            reached := rfl
            isQueryDef := rfl
            rejected := Or.inr rfl }, ?_⟩
  rintro ⟨after, returns, same⟩
  have queries :
      (after.config.querys.find? (Bytes.str "a")).map (fun query => query.querys.length) =
        some 2 := by
    cases returns
    rfl
  rw [same] at queries
  cases queries

end config

end Wdb2ts
