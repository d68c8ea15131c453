import Wdb2ts.ConfigParser
import Wdb2ts.Lib.Runs

/-!
# What the handlers rely on

The handlers of the parser use a request, a version and a query definition that earlier events have
set.  A `View` of the parser tells which of them are there, and the parser refines the automaton of
the views.
-/

namespace Wdb2ts

namespace config

variable {F : Type}

/-- The open elements, the characters, and whether there is a current request, a current version
and an assigned iterator of the query definitions. -/
structure View where
  xmlState : List Bytes
  chardata : Bytes
  inChardata : Bool
  request : Bool
  version : Bool
  queryDef : Bool
  deriving DecidableEq

namespace View

/-- The view of a new parser. -/
def create : View := ⟨[], [], false, false, false, false⟩

/-- The attribute has a value. -/
def has (attributes : AttributeMap) (attr : String) : Bool :=
  !(getAttr attributes (Bytes.str attr) []).2.isEmpty

/-- What the start of an element changes. -/
def start (attributes : AttributeMap) (view : View) : Option Place → View
  | some .request => { view with request := view.request || has attributes "path" }
  | some .version => { view with version := true }
  | some .queryDef => { view with queryDef := view.queryDef || has attributes "id" }
  | some .query => { view with inChardata := false, chardata := [] }
  | _ => view

/-- What the end of an element changes. -/
def end_ (view : View) : Option Place → View
  | some .request => { view with request := false }
  | some .version => { view with version := false }
  | some .queryDef => { view with queryDef := true }
  | _ => view

/-- What an event changes. -/
def step (view : View) : Event → View
  | .startElement fullname attributes =>
      start attributes { view with inChardata := false, xmlState := fullname :: view.xmlState }
        (place (fullname :: view.xmlState))
  | .endElement _ =>
      end_ { view with inChardata := false, chardata := [], xmlState := view.xmlState.tail }
        (place view.xmlState)
  | .characters buf =>
      { view with
        inChardata := true
        chardata := if view.inChardata then view.chardata ++ buf else buf }

/-- The request and the version that the end of an element uses are there. -/
def RequestSound (view : View) : Option Place → Prop
  | some .request => view.request = true
  | some .version => view.request = true → view.version = true
  | some (.paramDefs .request) => view.request = true
  | some (.paramDefs .version) => view.version = true
  | _ => True

/-- The iterator that the end of an element uses behind characters is assigned. -/
def QuerySound (view : View) (buf : Bytes) (place : Option Place) : Prop :=
  place = some .query → queryText buf ≠ [] → view.queryDef = true

/-- What an event relies on. -/
def Sound (view : View) : Event → Prop
  | .endElement _ =>
      view.xmlState ≠ [] ∧ view.RequestSound (place view.xmlState) ∧
        view.QuerySound view.chardata (place view.xmlState)
  | _ => True

theorem end_xmlState (view : View) (xmlState : List Bytes) (place : Option Place) :
    end_ { view with xmlState := xmlState } place =
      { end_ view place with xmlState := xmlState } := by
  rw [end_.eq_def, end_.eq_def]
  split <;> rfl

end View

/-- Is something assigned to the iterator? -/
def QueryDefIterator.isAssigned : QueryDefIterator → Bool
  | .uninitialised => false
  | .end_ => true
  | .at_ _ => true

/-- The view of a parser. -/
def ConfigParser.view (parser : ConfigParser F) : View :=
  { xmlState := parser.xmlState
    chardata := parser.chardata
    inChardata := parser.inChardata
    request := parser.currentRequest.isSome
    version := parser.currentRequestVersion.isSome
    queryDef := parser.itCurrentQueryDef.isAssigned }

/-! ## Handlers that only throw -/

/-- A handler that does not return throws a `std::logic_error`. -/
def OnlyThrows {α : Type} (handler : Except Failure α) : Prop :=
  ∀ failure, handler = .error failure → failure = .logicError

theorem onlyThrows_pure {α : Type} (value : α) : OnlyThrows (pure value : Except Failure α) := by
  intro failure fails
  cases fails

theorem OnlyThrows.bind {α β : Type} {handler : Except Failure α}
    (onlyThrows : OnlyThrows handler) {next : α → Except Failure β}
    (each : ∀ value, OnlyThrows (next value)) : OnlyThrows (handler >>= next) := by
  intro failure fails
  cases handler with
  | error thrown =>
      cases fails
      exact onlyThrows failure rfl
  | ok value => exact each value failure fails

namespace ParamDefState

variable (state : ParamDefState F)

theorem onlyThrows_paramDefError (msg : String) : OnlyThrows (state.paramDefError msg) := by
  rw [paramDefError]
  intro failure fails
  split at fails <;> cases fails
  rfl

theorem onlyThrows_castError (before : String) (value : Bytes) (between : String) :
    OnlyThrows (state.castError before value between) := by
  rw [castError]
  intro failure fails
  split at fails <;> cases fails
  rfl

theorem onlyThrows_doValueParameter (attributes : AttributeMap) :
    OnlyThrows (state.doValueParameter attributes) := by
  rw [doValueParameter]
  split
  · exact (state.onlyThrows_paramDefError _).bind fun _ => onlyThrows_pure _
  · split
    · exact (state.onlyThrows_paramDefError _).bind fun _ => onlyThrows_pure _
    · exact onlyThrows_pure _

theorem onlyThrows_doLevelParameter (attributes : AttributeMap) :
    OnlyThrows (state.doLevelParameter attributes) := by
  rw [doLevelParameter]
  split
  · exact (state.onlyThrows_paramDefError _).bind fun _ => onlyThrows_pure _
  split
  · exact (state.onlyThrows_paramDefError _).bind fun _ => onlyThrows_pure _
  split
  · exact (state.onlyThrows_paramDefError _).bind fun _ => onlyThrows_pure _
  split
  · exact (state.onlyThrows_paramDefError _).bind fun _ => onlyThrows_pure _
  split
  · exact (onlyThrows_castError _ _ _ _).bind fun _ => onlyThrows_pure _
  split
  · exact (onlyThrows_castError _ _ _ _).bind fun _ => onlyThrows_pure _
  · exact onlyThrows_pure _

theorem onlyThrows_castMessage {α : Type} (result : Option α) (before : String) (value : Bytes)
    (between : String) : OnlyThrows (state.castMessage result before value between) := by
  rw [castMessage]
  split
  · exact onlyThrows_pure []
  · exact state.onlyThrows_castError before value between

theorem onlyThrows_doScaleAndOffset (surroundings : Surroundings F) (attributes : AttributeMap) :
    OnlyThrows (state.doScaleAndOffset surroundings attributes) := by
  apply (state.onlyThrows_castMessage _ _ _ _).bind
  intro scaleMessage
  apply (state.onlyThrows_castMessage _ _ _ _).bind
  exact fun offsetMessage => onlyThrows_pure _

theorem onlyThrows_doValue (surroundings : Surroundings F) (attributes : AttributeMap) :
    OnlyThrows (state.doValue surroundings attributes) := by
  apply (state.onlyThrows_doScaleAndOffset surroundings attributes).bind
  intro read
  dsimp only
  split
  · exact onlyThrows_pure _
  split
  · intro failure fails
    split at fails <;> cases fails
    rfl
  · intro failure fails
    split at fails <;> cases fails
    rfl

theorem onlyThrows_doDataVersion (attributes : AttributeMap) :
    OnlyThrows (state.doDataVersion attributes) := by
  rw [doDataVersion]
  split
  · exact (state.onlyThrows_castError _ _ _).bind fun _ => onlyThrows_pure _
  · exact onlyThrows_pure _

end ParamDefState

namespace ConfigParser

variable {surroundings : Surroundings F} {parser : ConfigParser F}

/-! ## Starts of elements -/

theorem onlyThrows_start [Floats F] (attributes : AttributeMap) (place : Option Place) :
    OnlyThrows (start surroundings attributes parser place) := by
  rw [start.eq_def]
  split
  case h_10 => exact (ParamDefState.onlyThrows_doValueParameter _ _).bind fun _ => onlyThrows_pure _
  case h_11 => exact (ParamDefState.onlyThrows_doLevelParameter _ _).bind fun _ => onlyThrows_pure _
  case h_12 => exact (ParamDefState.onlyThrows_doValue _ _ _).bind fun _ => onlyThrows_pure _
  case h_13 => exact (ParamDefState.onlyThrows_doDataVersion _ _).bind fun _ => onlyThrows_pure _
  all_goals exact onlyThrows_pure _

theorem view_doInclude (attributes : AttributeMap) :
    (parser.doInclude surroundings attributes).view = parser.view := by
  dsimp only [doInclude]
  split
  · rfl
  · split <;> rfl

theorem view_doRequest (attributes : AttributeMap) :
    (parser.doRequest attributes).view =
      { parser.view with request := parser.view.request || View.has attributes "path" } := by
  dsimp only [doRequest]
  split
  · next request current => simp [report, view, current]
  · next absent =>
      split
      · next missing => simp [report, view, absent, View.has, missing]
      · next named => simp [report, view, View.has, named]

theorem view_doRequestDefaultActionParam (attributes : AttributeMap) :
    (parser.doRequestDefaultActionParam attributes).view = parser.view := by
  dsimp only [doRequestDefaultActionParam]
  split
  · rfl
  · next request current => simp [report, view, current]

theorem view_doRequestVersion (attributes : AttributeMap) :
    (parser.doRequestVersion attributes).view = { parser.view with version := true } := by
  dsimp only [doRequestVersion]
  split
  · next version current => simp [report, view, current]
  · rfl

theorem view_doVersionActionParam (attributes : AttributeMap) :
    (parser.doVersionActionParam attributes).view = parser.view := by
  dsimp only [doVersionActionParam]
  split <;> rfl

theorem view_doQueryDef (attributes : AttributeMap) :
    (parser.doQueryDef surroundings attributes).view =
      { parser.view with queryDef := parser.view.queryDef || View.has attributes "id" } := by
  dsimp only [doQueryDef]
  split
  · next missing => simp [report, view, View.has, missing]
  · next named =>
      split <;> simp [report, view, View.has, named, QueryDefIterator.isAssigned]

/-- A handler of the parameter definitions leaves the view alone. -/
theorem view_of_bind_withParamDefs {handler : Except Failure (Bytes × ParamDefState F)}
    {next : ConfigParser F}
    (returns : (do return parser.withParamDefs (← handler)) = Except.ok next) :
    next.view = parser.view := by
  cases handler with
  | error failure => cases returns
  | ok read =>
      cases returns
      rfl

/-- The start of an element changes the view as the automaton does. -/
theorem view_start [Floats F] (attributes : AttributeMap) (place : Option Place)
    {next : ConfigParser F}
    (returns : start surroundings attributes parser place = .ok next) :
    next.view = View.start attributes parser.view place := by
  rw [start.eq_def] at returns
  split at returns
  case h_10 | h_11 | h_12 | h_13 => exact view_of_bind_withParamDefs returns
  all_goals cases returns
  case h_1 => exact view_doInclude attributes
  case h_2 => exact view_doRequest attributes
  case h_3 => exact view_doRequestDefaultActionParam attributes
  case h_4 => exact view_doRequestVersion attributes
  case h_5 => exact view_doVersionActionParam attributes
  case h_6 => exact view_doQueryDef attributes
  all_goals rfl

/-! ## Ends of elements -/

/-- A handler at the end of an element returns with a view, or fails because what it relies on is
missing. -/
def Ends (sound : Prop) (expected : View) : Except Failure (ConfigParser F) → Prop
  | .ok next => sound ∧ next.view = expected
  | .error failure => ¬sound ∧ failure ≠ .logicError

theorem ends_endVersion (parser : ConfigParser F) :
    Ends (parser.view.request = true → parser.view.version = true)
      { parser.view with version := false } parser.endVersion := by
  rw [endVersion]
  split
  · next absent => simp [Ends, pure, Except.pure, view, absent]
  · next request current absent =>
      simp [Ends, throw, throwThe, MonadExceptOf.throw, view, current, absent]
  · next request it current isVersion =>
      simp [Ends, pure, Except.pure, view, report, current, isVersion]

theorem ends_endRequest (parser : ConfigParser F) :
    Ends (parser.view.request = true) { parser.view with request := false } parser.endRequest := by
  rw [endRequest]
  split
  · next absent => simp [Ends, throw, throwThe, MonadExceptOf.throw, view, absent]
  · next request current => simp [Ends, pure, Except.pure, view, current]

theorem ends_endQuery (buf : Bytes) (parser : ConfigParser F) :
    Ends (queryText buf ≠ [] → parser.view.queryDef = true) parser.view
      (parser.endQuery buf) := by
  dsimp only [endQuery]
  split
  · next blank => simp [Ends, pure, Except.pure, List.isEmpty_iff.mp blank]
  · next text =>
      rw [List.isEmpty_iff] at text
      split
      · next absent =>
          simp [Ends, throw, throwThe, MonadExceptOf.throw, view, absent,
            QueryDefIterator.isAssigned, text]
      · next ended => simp [Ends, pure, Except.pure, view, ended, QueryDefIterator.isAssigned]
      · next id current =>
          simp [Ends, pure, Except.pure, view, current, QueryDefIterator.isAssigned]

theorem ends_endParamDefs (parser : ConfigParser F) (owner : Owner) :
    Ends (parser.view.RequestSound (some (.paramDefs owner))) parser.view
      (parser.endParamDefs owner) := by
  cases owner with
  | configuration => exact ⟨trivial, rfl⟩
  | request =>
      rw [endParamDefs.eq_def]
      dsimp only
      split
      · next absent =>
          simp [Ends, throw, throwThe, MonadExceptOf.throw, view, absent, View.RequestSound]
      · next request current => simp [Ends, pure, Except.pure, view, current, View.RequestSound]
  | version =>
      rw [endParamDefs.eq_def]
      dsimp only
      split
      · next absent =>
          simp [Ends, throw, throwThe, MonadExceptOf.throw, view, absent, View.RequestSound]
      · next it current => simp [Ends, pure, Except.pure, view, current, View.RequestSound]

theorem Ends.congr {sound other : Prop} {expected : View}
    {result : Except Failure (ConfigParser F)} (ends : Ends sound expected result)
    (same : other ↔ sound) : Ends other expected result := by
  rwa [propext same]

/-- The end of an element relies on the request, the version and the iterator, and on nothing
else. -/
theorem ends_end [Floats F] (buf : Bytes) (parser : ConfigParser F) (place : Option Place) :
    Ends (parser.view.RequestSound place ∧ parser.view.QuerySound buf place)
      (parser.view.end_ place) (parser.end_ buf place) := by
  have noQuery : place ≠ some .query → parser.view.QuerySound buf place :=
    fun different same => absurd same different
  cases place with
  | none => exact ⟨⟨trivial, noQuery nofun⟩, rfl⟩
  | some place =>
      cases place with
      | version => exact parser.ends_endVersion.congr (and_iff_left (noQuery nofun))
      | request => exact parser.ends_endRequest.congr (and_iff_left (noQuery nofun))
      | query =>
          apply (parser.ends_endQuery buf).congr
          simp [View.RequestSound, View.QuerySound]
      | paramDefs owner =>
          exact (parser.ends_endParamDefs owner).congr (and_iff_left (noQuery nofun))
      | _ => exact ⟨⟨trivial, noQuery nofun⟩, rfl⟩

/-! ## Runs of events -/

/-- A returned end of an element leads to the view of the automaton, and it relied on nothing that
is missing. -/
theorem endElement_spec [Floats F] (parser : ConfigParser F) (name : Bytes) :
    Ends (parser.view.RequestSound (place parser.xmlState) ∧
        parser.view.QuerySound parser.chardata (place parser.xmlState))
      (parser.view.step (.endElement name)) parser.endElement := by
  have ends := ends_end parser.chardata { parser with inChardata := false, chardata := [] }
    (place parser.xmlState)
  rw [endElement]
  cases result : end_ parser.chardata { parser with inChardata := false, chardata := [] }
      (place parser.xmlState) with
  | error failure =>
      rw [result] at ends
      exact ends
  | ok next =>
      rw [result] at ends
      have stepped : parser.view.step (.endElement name) =
          { next.view with xmlState := parser.xmlState.tail } := by
        rw [ends.2, ← View.end_xmlState]
        rfl
      have sameState : next.xmlState = parser.xmlState := by
        have state := congrArg View.xmlState ends.2
        rw [View.end_.eq_def] at state
        split at state <;> exact state
      refine ⟨ends.1, ?_⟩
      rw [stepped, ← sameState]
      rfl

/-- The parser refines the automaton. -/
theorem view_handle [Floats F] {event : Event} {next : ConfigParser F}
    (returns : parser.handle surroundings event = .ok next) :
    next.view = parser.view.step event := by
  cases event with
  | startElement fullname attributes =>
      exact view_start attributes (place (fullname :: parser.xmlState)) returns
  | endElement name =>
      have spec := parser.endElement_spec name
      rw [show parser.endElement = .ok next from returns] at spec
      exact spec.2
  | characters buf =>
      cases returns
      rfl

/-- The handler of an event behind the handlers of the events before. -/
def next [Floats F] (surroundings : Surroundings F) (result : Except Failure (ConfigParser F))
    (event : Event) : Except Failure (ConfigParser F) :=
  result.bind fun parser => parser.handle surroundings event

/-- The handler of an event uses no null pointer and no iterator that is not assigned, and pops no
empty state. -/
def SafeAt [Floats F] (surroundings : Surroundings F) :
    Except Failure (ConfigParser F) → Event → Prop
  | .ok parser, event =>
      OnlyThrows (parser.handle surroundings event) ∧
        ∀ name, event = .endElement name → parser.xmlState ≠ []
  | .error _, _ => True

theorem safeAt_of_sound [Floats F] {event : Event} (sound : parser.view.Sound event) :
    SafeAt surroundings (.ok parser) event := by
  cases event with
  | startElement fullname attributes =>
      exact ⟨onlyThrows_start attributes _, nofun⟩
  | endElement name =>
      constructor
      · intro failure fails
        have spec := parser.endElement_spec name
        rw [show parser.endElement = .error failure from fails] at spec
        exact absurd sound.2 spec.1
      · exact fun _ _ => sound.1
  | characters buf => exact ⟨onlyThrows_pure _, nofun⟩

theorem sound_of_safeAt [Floats F] {event : Event} (safeAt : SafeAt surroundings (.ok parser) event)
    {next : ConfigParser F} (returns : parser.handle surroundings event = .ok next) :
    parser.view.Sound event := by
  cases event with
  | startElement fullname attributes => trivial
  | endElement name =>
      have spec := parser.endElement_spec name
      rw [show parser.endElement = .ok next from returns] at spec
      exact ⟨safeAt.2 name rfl, spec.1⟩
  | characters buf => trivial

/-- Nothing happens behind a failure. -/
theorem eachStep_error [Floats F] (failure : Failure) (events : List Event) :
    Runs.EachStep (next surroundings) (SafeAt surroundings)
      (.error failure : Except Failure (ConfigParser F)) events := by
  induction events with
  | nil => trivial
  | cons event rest ih => exact ⟨trivial, ih⟩

theorem run_error [Floats F] (failure : Failure) (events : List Event) :
    Runs.run (next surroundings) (.error failure : Except Failure (ConfigParser F)) events =
      .error failure := by
  induction events with
  | nil => rfl
  | cons event rest ih => exact ih

/-- A run is safe when the automaton's run is sound. -/
theorem safe_of_sound [Floats F] {events : List Event} {parser : ConfigParser F}
    (sound : Runs.EachStep View.step View.Sound parser.view events) :
    Runs.EachStep (next surroundings) (SafeAt surroundings) (.ok parser) events := by
  induction events generalizing parser with
  | nil => trivial
  | cons event rest ih =>
      refine ⟨safeAt_of_sound sound.1, ?_⟩
      have step : next surroundings (.ok parser) event = parser.handle surroundings event := rfl
      rw [step]
      cases returns : parser.handle surroundings event with
      | error failure => exact eachStep_error failure rest
      | ok reached => exact ih (view_handle returns ▸ sound.2)

/-- The automaton's run is sound when a run is safe and returns. -/
theorem sound_of_safe [Floats F] {events : List Event} {parser last : ConfigParser F}
    (safe : Runs.EachStep (next surroundings) (SafeAt surroundings) (.ok parser) events)
    (returns : Runs.run (next surroundings) (.ok parser) events = .ok last) :
    Runs.EachStep View.step View.Sound parser.view events := by
  induction events generalizing parser with
  | nil => trivial
  | cons event rest ih =>
      rw [Runs.run_cons] at returns
      have step : next surroundings (.ok parser) event = parser.handle surroundings event := rfl
      cases handled : parser.handle surroundings event with
      | error failure =>
          rw [step, handled, run_error] at returns
          cases returns
      | ok reached =>
          refine ⟨sound_of_safeAt safe.1 handled, ?_⟩
          rw [step, handled] at returns
          rw [← view_handle handled]
          exact ih (by simpa only [step, handled] using safe.2) returns

end ConfigParser

end config

end Wdb2ts
