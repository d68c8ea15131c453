import Wdb2ts.ConfigDocuments

/-!
# Safety of the configuration parser

The view behind the events of an element is the view in front of them, except for the iterator,
which is assigned from the first query definition on.  The events of a document are sound exactly
when every request has a path, and the first query definition has an id or no queries with a text.
-/

namespace Wdb2ts

namespace config

namespace View

variable {view : View}

/-! ## One event -/

theorem start_request (attributes : AttributeMap) (place : Option Place) :
    (start attributes view place).request =
      if place = some .request then view.request || has attributes "path" else view.request := by
  rw [start.eq_def]
  split <;> simp_all

theorem start_version (attributes : AttributeMap) (place : Option Place) :
    (start attributes view place).version =
      if place = some .version then true else view.version := by
  rw [start.eq_def]
  split <;> simp_all

theorem start_queryDef (attributes : AttributeMap) (place : Option Place) :
    (start attributes view place).queryDef =
      if place = some .queryDef then view.queryDef || has attributes "id"
      else view.queryDef := by
  rw [start.eq_def]
  split <;> simp_all

theorem start_xmlState (attributes : AttributeMap) (place : Option Place) :
    (start attributes view place).xmlState = view.xmlState := by
  rw [start.eq_def]
  split <;> rfl

theorem end_request (place : Option Place) :
    (end_ view place).request = if place = some .request then false else view.request := by
  rw [end_.eq_def]
  split <;> simp_all

theorem end_version (place : Option Place) :
    (end_ view place).version = if place = some .version then false else view.version := by
  rw [end_.eq_def]
  split <;> simp_all

theorem end_queryDef (place : Option Place) :
    (end_ view place).queryDef = if place = some .queryDef then true else view.queryDef := by
  rw [end_.eq_def]
  split <;> simp_all

/-! ## Elements -/

/-- The view in front of an element or a text: the names are names of elements, and a request or a
version is only there inside its element. -/
structure Between (view : View) : Prop where
  noSlash : NoSlash view.xmlState
  request : ¬Inside .request view.xmlState → view.request = false
  version : ¬Inside .version view.xmlState → view.version = false

/-- Characters that are not being read are cleared. -/
def Clean (view : View) : Prop := view.inChardata = false → view.chardata = []

theorem Between.noSlash_cons (between : view.Between) (name : ElementName) :
    NoSlash (name.1 :: view.xmlState) := by
  intro other member
  rcases List.mem_cons.mp member with rfl | member
  · exact name.2
  · exact between.noSlash other member

theorem Between.start (between : view.Between) (name : ElementName) (attributes : AttributeMap) :
    (view.step (.startElement name attributes)).Between := by
  have noSlash := between.noSlash_cons name
  constructor
  · rw [step, start_xmlState]
    exact noSlash
  · intro outside
    rw [step, start_xmlState] at outside
    rw [inside_cons_iff noSlash, not_or] at outside
    rw [step, start_request, if_neg outside.1]
    exact between.request outside.2
  · intro outside
    rw [step, start_xmlState] at outside
    rw [inside_cons_iff noSlash, not_or] at outside
    rw [step, start_version, if_neg outside.1]
    exact between.version outside.2

/-- What the events of a content leave of a view. -/
structure Through (content : Content) (view after : View) : Prop where
  xmlState : after.xmlState = view.xmlState
  request : after.request = view.request
  version : after.version = view.version
  queryDef : after.queryDef =
    (view.queryDef || !(content.elements .queryDef view.xmlState).isEmpty)
  clean : view.Clean → after.Clean ∧ after.chardata = content.trailingText view.chardata

theorem Between.congr (between : view.Between) {after : View}
    (xmlState : after.xmlState = view.xmlState) (request : after.request = view.request)
    (version : after.version = view.version) : after.Between where
  noSlash := xmlState ▸ between.noSlash
  request := by
    rw [xmlState, request]
    exact between.request
  version := by
    rw [xmlState, version]
    exact between.version

theorem step_start_xmlState (name : Bytes) (attributes : AttributeMap) :
    (view.step (.startElement name attributes)).xmlState = name :: view.xmlState := by
  rw [step, start_xmlState]

/-- What an element changes from its start to its end. -/
structure Passes (attributes : AttributeMap) (name : Bytes) (children : Content)
    (view after : View) : Prop where
  xmlState : after.xmlState = view.xmlState
  request : after.request = view.request
  version : after.version = view.version
  queryDef : after.queryDef = (view.queryDef || (decide (place (name :: view.xmlState) =
    some .queryDef) || !(children.elements .queryDef (name :: view.xmlState)).isEmpty))
  inChardata : after.inChardata = false
  chardata : after.chardata = []

theorem Between.passes (between : view.Between) (name : ElementName) (attributes : AttributeMap)
    {children : Content} {inner : View}
    (through : Through children (view.step (.startElement name attributes)) inner) :
    Passes attributes name children view (inner.step (.endElement name)) := by
  have noSlash := between.noSlash_cons name
  have innerState : inner.xmlState = name.1 :: view.xmlState := by
    rw [through.xmlState, step_start_xmlState]
  have ended : inner.step (.endElement name) =
      end_ { inner with inChardata := false, chardata := [], xmlState := view.xmlState }
        (place (name.1 :: view.xmlState)) := by
    rw [step, innerState]
    rfl
  have request := through.request
  have version := through.version
  have queryDef := through.queryDef
  rw [step, start_request] at request
  rw [step, start_version] at version
  rw [step_start_xmlState, step, start_queryDef] at queryDef
  rw [ended]
  constructor
  · rw [end_.eq_def]
    split <;> rfl
  · rw [end_request, request]
    by_cases isRequest : place (name.1 :: view.xmlState) = some .request
    · rw [if_pos isRequest]
      exact (between.request (not_inside_of_place noSlash isRequest)).symm
    · rw [if_neg isRequest, if_neg isRequest]
  · rw [end_version, version]
    by_cases isVersion : place (name.1 :: view.xmlState) = some .version
    · rw [if_pos isVersion]
      exact (between.version (not_inside_of_place noSlash isVersion)).symm
    · rw [if_neg isVersion, if_neg isVersion]
  · rw [end_queryDef, queryDef]
    by_cases isQueryDef : place (name.1 :: view.xmlState) = some .queryDef
    · simp [isQueryDef]
    · simp [isQueryDef]
  · rw [end_.eq_def]
    split <;> rfl
  · rw [end_.eq_def]
    split <;> rfl

theorem Clean.characters (clean : view.Clean) (chars : Bytes) :
    (view.step (.characters chars)).chardata = view.chardata ++ chars := by
  rw [step]
  cases reads : view.inChardata with
  | false =>
      rw [clean reads]
      rfl
  | true => rfl

theorem run_element (view : View) (name : ElementName) (attributes : AttributeMap)
    (children rest : Content) :
    Runs.run step view (Content.element name attributes children rest).events =
      Runs.run step ((Runs.run step (view.step (.startElement name attributes))
        children.events).step (.endElement name)) rest.events := by
  rw [Content.events, Runs.run_cons, Runs.run_append, Runs.run_cons]

/-- A content leaves the request and the version alone, and assigns the iterator when it has a query
definition. -/
theorem Between.through (between : view.Between) (content : Content) :
    Through content view (Runs.run step view content.events) := by
  induction content generalizing view with
  | nil =>
      have noElements : view.queryDef = (view.queryDef ||
          !(Content.nil.elements .queryDef view.xmlState).isEmpty) := by
        simp [Content.elements]
      exact ⟨rfl, rfl, rfl, noElements, fun clean => ⟨clean, rfl⟩⟩
  | text chars rest ih =>
      have readOn : (view.step (.characters chars)).Between := between.congr rfl rfl rfl
      have later := ih readOn
      refine ⟨later.xmlState, later.request, later.version, later.queryDef, fun clean => ?_⟩
      have cleanLater : (view.step (.characters chars)).Clean := fun reads => by cases reads
      rw [Content.trailingText, ← clean.characters chars]
      exact later.clean cleanLater
  | element name attributes children rest ihChildren ihRest =>
      have inner := ihChildren (between.start name attributes)
      have passes := between.passes name attributes inner
      have later := ihRest (between.congr passes.xmlState passes.request passes.version)
      rw [run_element]
      constructor
      · rw [later.xmlState, passes.xmlState]
      · rw [later.request, passes.request]
      · rw [later.version, passes.version]
      · rw [later.queryDef, passes.queryDef, passes.xmlState, Content.elements]
        by_cases isQueryDef : place (name.1 :: view.xmlState) = some .queryDef
        · simp [isQueryDef]
        · cases children.elements .queryDef (name.1 :: view.xmlState) <;> simp [isQueryDef]
      · intro _
        have cleanLater := later.clean fun _ => passes.chardata
        rw [passes.chardata] at cleanLater
        exact cleanLater

/-! ## Requests -/

/-- What an event relies on, except for the iterator. -/
def RequestEvent (view : View) (event : Event) : Prop :=
  ∀ name, event = .endElement name →
    view.xmlState ≠ [] ∧ view.RequestSound (place view.xmlState)

/-- What an event relies on of the iterator. -/
def QueryEvent (view : View) (event : Event) : Prop :=
  ∀ name, event = .endElement name → view.QuerySound view.chardata (place view.xmlState)

theorem requestEvent_start (view : View) (name : Bytes) (attributes : AttributeMap) :
    view.RequestEvent (.startElement name attributes) := nofun

theorem requestEvent_characters (view : View) (buf : Bytes) :
    view.RequestEvent (.characters buf) := nofun

theorem queryEvent_start (view : View) (name : Bytes) (attributes : AttributeMap) :
    view.QueryEvent (.startElement name attributes) := nofun

theorem queryEvent_characters (view : View) (buf : Bytes) :
    view.QueryEvent (.characters buf) := nofun

theorem sound_iff (view : View) (event : Event) :
    view.Sound event ↔ view.RequestEvent event ∧ view.QueryEvent event := by
  cases event with
  | endElement name =>
      constructor
      · exact fun sound => ⟨fun _ _ => ⟨sound.1, sound.2.1⟩, fun _ _ => sound.2.2⟩
      · exact fun both => ⟨(both.1 name rfl).1, (both.1 name rfl).2, both.2 name rfl⟩
  | _ => exact ⟨fun _ => ⟨nofun, nofun⟩, fun _ => trivial⟩

/-- The events of an element, one after the other. -/
theorem eachStep_element {holds : View → Event → Prop} {name : ElementName}
    {attributes : AttributeMap} {children rest : Content}
    (starts : holds view (.startElement name attributes)) {inner : View}
    (reached : Runs.run step (view.step (.startElement name attributes)) children.events = inner) :
    Runs.EachStep step holds view (Content.element name attributes children rest).events ↔
      Runs.EachStep step holds (view.step (.startElement name attributes)) children.events ∧
        holds inner (.endElement name) ∧
          Runs.EachStep step holds (inner.step (.endElement name)) rest.events := by
  rw [Content.events, Runs.EachStep, Runs.eachStep_append, reached, Runs.EachStep,
    and_iff_right starts]

/-- A request and a version are there inside their elements. -/
structure Ready (view : View) : Prop extends Between view where
  inRequest : Inside .request view.xmlState → view.request = true
  inVersion : Inside .version view.xmlState → view.version = true

theorem Ready.congr (ready : view.Ready) {after : View} (xmlState : after.xmlState = view.xmlState)
    (request : after.request = view.request) (version : after.version = view.version) :
    after.Ready where
  toBetween := ready.toBetween.congr xmlState request version
  inRequest := by
    rw [xmlState, request]
    exact ready.inRequest
  inVersion := by
    rw [xmlState, version]
    exact ready.inVersion

/-- What the end of an element relies on is there. -/
theorem Ready.requestSound (ready : view.Ready) : view.RequestSound (place view.xmlState) := by
  have inside : ∀ {wanted other : Place}, place view.xmlState = some other →
      Inside wanted other.xmlState → Inside wanted view.xmlState :=
    fun found => inside_of_place ready.noSlash found
  cases found : place view.xmlState with
  | none => trivial
  | some other =>
      cases other with
      | request => exact ready.inRequest (inside found (List.suffix_refl _))
      | version => exact fun _ => ready.inVersion (inside found (List.suffix_refl _))
      | paramDefs owner =>
          cases owner with
          | configuration => trivial
          | request => exact ready.inRequest (inside found (List.suffix_cons _ _))
          | version => exact ready.inVersion (inside found (List.suffix_cons _ _))
      | _ => trivial

/-- A started element is ready unless it is a request without a path. -/
theorem Ready.start (ready : view.Ready) (name : ElementName) {attributes : AttributeMap}
    (named : place (name.1 :: view.xmlState) = some .request → has attributes "path" = true) :
    (view.step (.startElement name attributes)).Ready where
  toBetween := ready.toBetween.start name attributes
  inRequest := by
    rw [step_start_xmlState, inside_cons_iff (ready.noSlash_cons name), step, start_request]
    intro inside
    by_cases isRequest : place (name.1 :: view.xmlState) = some .request
    · rw [if_pos isRequest, named isRequest, Bool.or_true]
    · rw [if_neg isRequest]
      exact ready.inRequest (inside.resolve_left isRequest)
  inVersion := by
    rw [step_start_xmlState, inside_cons_iff (ready.noSlash_cons name), step, start_version]
    intro inside
    by_cases isVersion : place (name.1 :: view.xmlState) = some .version
    · rw [if_pos isVersion]
    · rw [if_neg isVersion]
      exact ready.inVersion (inside.resolve_left isVersion)

/-- The request and the version that a content relies on are there exactly when every request in it
has a path. -/
theorem Ready.eachStep_requestEvent_iff (ready : view.Ready) (content : Content) :
    Runs.EachStep step RequestEvent view content.events ↔
      ∀ element ∈ content.elements .request view.xmlState, has element.1 "path" = true := by
  induction content generalizing view with
  | nil => simp [Content.events, Content.elements, Runs.EachStep]
  | text chars rest ih =>
      have readOn : (view.step (.characters chars)).Ready := ready.congr rfl rfl rfl
      rw [Content.events, Runs.EachStep, ih readOn]
      exact and_iff_right (view.requestEvent_characters chars)
  | element name attributes children rest ihChildren ihRest =>
      have inner := (ready.toBetween.start name attributes).through children
      have passes := ready.toBetween.passes name attributes inner
      have later := ihRest (ready.congr passes.xmlState passes.request passes.version)
      have innerState : (Runs.run step (view.step (.startElement name attributes))
          children.events).xmlState = name.1 :: view.xmlState := by
        rw [inner.xmlState, step_start_xmlState]
      rw [eachStep_element (view.requestEvent_start name attributes) rfl, later, passes.xmlState,
        Content.forall_elements_iff]
      by_cases named : place (name.1 :: view.xmlState) = some .request →
          has attributes "path" = true
      · have started := ready.start name named
        have ended := started.congr inner.xmlState inner.request inner.version
        have sound : RequestEvent (Runs.run step (view.step (.startElement name attributes))
            children.events) (.endElement name) :=
          fun _ _ => ⟨innerState ▸ List.cons_ne_nil _ _, ended.requestSound⟩
        rw [ihChildren started, step_start_xmlState, and_iff_right sound, and_iff_right named]
      · constructor
        · intro each
          have requestSound := (each.2.1 name rfl).2
          rw [Classical.not_imp] at named
          have notBefore := ready.request (not_inside_of_place (ready.noSlash_cons name) named.1)
          rw [innerState, named.1] at requestSound
          have there : view.request = true ∨ has attributes "path" = true := by
            have started := inner.request.symm.trans requestSound
            rw [step, start_request, if_pos named.1] at started
            exact (Bool.or_eq_true _ _).mp started
          rw [notBefore] at there
          exact absurd (there.resolve_left Bool.false_ne_true) named.2
        · exact fun all => absurd all.1 named

/-! ## Query definitions -/

/-- An iterator that is assigned stays assigned. -/
theorem step_queryDef (assigned : view.queryDef = true) (event : Event) :
    (view.step event).queryDef = true := by
  cases event with
  | startElement fullname attributes =>
      rw [step, start_queryDef]
      split
      · rw [assigned, Bool.true_or]
      · exact assigned
  | endElement name =>
      rw [step, end_queryDef]
      split
      · rfl
      · exact assigned
  | characters buf => exact assigned

theorem eachStep_queryEvent_of_queryDef (assigned : view.queryDef = true) (events : List Event) :
    Runs.EachStep step QueryEvent view events := by
  induction events generalizing view with
  | nil => trivial
  | cons event rest ih => exact ⟨fun _ _ _ _ => assigned, ih (step_queryDef assigned event)⟩

/-- A query whose element has no text. -/
def IsBlank (query : AttributeMap × Content) : Prop := queryText (query.2.trailingText []) = []

/-- The queries that an iterator without assignment would be used for have no text: those of the
open query definition, or those of the first one when it has no id. -/
def QueriesKnown (xmlState : List Bytes) (content : Content) : Prop :=
  if Inside .queryDef xmlState then ∀ query ∈ content.elements .query xmlState, IsBlank query
  else
    ∀ first ∈ (content.elements .queryDef xmlState).head?,
      has first.1 "id" = true ∨ ∀ query ∈ first.2.elements .query queryDefState, IsBlank query

/-- There is no query definition in a query definition. -/
theorem elements_eq_nil_of_inside {wanted : Place} (content : Content) {xmlState : List Bytes}
    (noSlash : NoSlash xmlState) (inside : Inside wanted xmlState) :
    content.elements wanted xmlState = [] := by
  induction content generalizing xmlState with
  | nil => rfl
  | text chars rest ih => exact ih noSlash inside
  | element name attributes children rest ihChildren ihRest =>
      have noSlashIn : NoSlash (name.1 :: xmlState) := by
        intro other member
        rcases List.mem_cons.mp member with rfl | member
        · exact name.2
        · exact noSlash other member
      have notHere : place (name.1 :: xmlState) ≠ some wanted :=
        fun found => not_inside_of_place noSlashIn found inside
      rw [Content.elements, if_neg notHere,
        ihChildren noSlashIn ((inside_cons_iff noSlashIn).mpr (Or.inr inside)),
        ihRest noSlash inside]
      rfl

/-- The end of an element without query definitions relies on the iterator when it is a query with
a text. -/
theorem queryEvent_end_iff (name : ElementName) {attributes : AttributeMap} {children : Content}
    {inner : View}
    (through : Through children (view.step (.startElement name attributes)) inner)
    (absent : inner.queryDef = false) :
    inner.QueryEvent (.endElement name) ↔
      (place (name.1 :: view.xmlState) = some .query → IsBlank (attributes, children)) := by
  have innerState : inner.xmlState = name.1 :: view.xmlState := by
    rw [through.xmlState, step_start_xmlState]
  have text : place (name.1 :: view.xmlState) = some .query →
      inner.chardata = children.trailingText [] := by
    intro isQuery
    have cleared : (view.step (.startElement name attributes)).chardata = [] := by
      rw [step, isQuery]
      rfl
    have clean := (through.clean fun _ => cleared).2
    rwa [cleared] at clean
  constructor
  · intro event isQuery
    by_contra notBlank
    have assigned := event name rfl (innerState ▸ isQuery) (by rwa [text isQuery])
    rw [absent] at assigned
    cases assigned
  · intro blank _ _ isQuery notEmpty
    rw [innerState] at isQuery
    rw [text isQuery] at notEmpty
    exact absurd (blank isQuery) notEmpty

/-- The end of an element that is no query relies on no iterator. -/
theorem queryEvent_end_of_ne {inner : View} {fullname : Bytes}
    (noQuery : place inner.xmlState ≠ some .query) : inner.QueryEvent (.endElement fullname) := by
  intro _ _ isQuery
  exact absurd isQuery noQuery

/-- An element starts the first query definition when it is one and has an identifier. -/
theorem queryDef_step_start (absent : view.queryDef = false) (name : ElementName)
    (attributes : AttributeMap) :
    (view.step (.startElement name attributes)).queryDef =
      (decide (place (name.1 :: view.xmlState) = some .queryDef) && has attributes "id") := by
  rw [step, start_queryDef, absent]
  by_cases isQueryDef : place (name.1 :: view.xmlState) = some .queryDef <;> simp [isQueryDef]

/-- At the first query definition every query has its iterator, when the definition has an
identifier. -/
theorem queriesKnown_queryDef {name : ElementName} {attributes : AttributeMap}
    {children rest : Content} {xmlState : List Bytes} (noSlash : NoSlash (name.1 :: xmlState))
    (isQueryDef : place (name.1 :: xmlState) = some .queryDef) :
    QueriesKnown xmlState (.element name attributes children rest) ↔
      (has attributes "id" = true ∨ QueriesKnown (name.1 :: xmlState) children) := by
  have outside := not_inside_of_place noSlash isQueryDef
  have inside : Inside .queryDef (name.1 :: xmlState) :=
    (inside_cons_iff noSlash).mpr (Or.inl isQueryDef)
  rw [QueriesKnown, QueriesKnown, if_neg outside, if_pos inside, Content.elements,
    if_pos isQueryDef, (place_eq_some_iff noSlash .queryDef).mp isQueryDef]
  simp only [List.cons_append, List.head?_cons, Option.mem_def, Option.some.injEq, forall_eq']
  rfl

/-- The queries of an element in a query definition have no text. -/
theorem queriesKnown_inside {name : ElementName} {attributes : AttributeMap}
    {children rest : Content} {xmlState : List Bytes} (noSlash : NoSlash (name.1 :: xmlState))
    (inside : Inside .queryDef xmlState) :
    QueriesKnown xmlState (.element name attributes children rest) ↔
      (place (name.1 :: xmlState) = some .query → IsBlank (attributes, children)) ∧
        QueriesKnown (name.1 :: xmlState) children ∧ QueriesKnown xmlState rest := by
  have insideIt : Inside .queryDef (name.1 :: xmlState) :=
    (inside_cons_iff noSlash).mpr (Or.inr inside)
  rw [QueriesKnown, QueriesKnown, QueriesKnown, if_pos inside, if_pos insideIt, if_pos inside,
    Content.forall_elements_iff]

/-- The first query definition of an element and of what follows it. -/
theorem queriesKnown_outside {name : ElementName} {attributes : AttributeMap}
    {children rest : Content} {xmlState : List Bytes}
    (isNot : place (name.1 :: xmlState) ≠ some .queryDef)
    (outside : ¬Inside .queryDef xmlState)
    (outsideIt : ¬Inside .queryDef (name.1 :: xmlState)) :
    QueriesKnown xmlState (.element name attributes children rest) ↔
      QueriesKnown (name.1 :: xmlState) children ∧
        (children.elements .queryDef (name.1 :: xmlState) = [] → QueriesKnown xmlState rest) := by
  rw [QueriesKnown, QueriesKnown, QueriesKnown, if_neg outside, if_neg outsideIt, if_neg outside,
    Content.elements, if_neg isNot, List.nil_append]
  cases children.elements .queryDef (name.1 :: xmlState) with
  | nil => simp
  | cons first others => simp

/-- The iterator that a content relies on is assigned exactly when the queries that would use it
without assignment have no text. -/
theorem Between.eachStep_queryEvent_iff (between : view.Between) (absent : view.queryDef = false)
    (content : Content) :
    Runs.EachStep step QueryEvent view content.events ↔ QueriesKnown view.xmlState content := by
  induction content generalizing view with
  | nil => simp [Content.events, Content.elements, Runs.EachStep, QueriesKnown]
  | text chars rest ih =>
      have readOn : (view.step (.characters chars)).Between := between.congr rfl rfl rfl
      rw [Content.events, Runs.EachStep, ih readOn absent]
      exact and_iff_right (view.queryEvent_characters chars)
  | element name attributes children rest ihChildren ihRest =>
      have noSlash := between.noSlash_cons name
      have started := between.start name attributes
      have inner := started.through children
      have passes := between.passes name attributes inner
      have afterwards := between.congr passes.xmlState passes.request passes.version
      have innerState : (Runs.run step (view.step (.startElement name attributes))
          children.events).xmlState = name.1 :: view.xmlState := by
        rw [inner.xmlState, step_start_xmlState]
      have endSound (noQuery : place (name.1 :: view.xmlState) ≠ some .query) :
          QueryEvent (Runs.run step (view.step (.startElement name attributes)) children.events)
            (.endElement name) := by
        apply queryEvent_end_of_ne
        rw [innerState]
        exact noQuery
      have startedQueryDef := queryDef_step_start absent name attributes
      have afterQueryDef := passes.queryDef
      rw [absent, Bool.false_or] at afterQueryDef
      rw [eachStep_element (view.queryEvent_start name attributes) rfl]
      by_cases isQueryDef : place (name.1 :: view.xmlState) = some .queryDef
      · -- the first query definition
        have restSound := eachStep_queryEvent_of_queryDef
          (afterQueryDef.trans (by simp [isQueryDef])) rest.events
        have noQuery : place (name.1 :: view.xmlState) ≠ some .query := by
          rw [isQueryDef]
          decide
        rw [and_iff_left ⟨endSound noQuery, restSound⟩, queriesKnown_queryDef noSlash isQueryDef]
        cases hasId : has attributes "id" with
        | true =>
            have known := eachStep_queryEvent_of_queryDef
              (startedQueryDef.trans (by simp [isQueryDef, hasId])) children.events
            simp [known]
        | false =>
            have unknown := startedQueryDef.trans (by simp [hasId] : _ = false)
            rw [ihChildren started unknown, step_start_xmlState]
            simp
      · have unknown := startedQueryDef.trans (by simp [isQueryDef] : _ = false)
        rw [ihChildren started unknown, step_start_xmlState]
        by_cases inside : Inside .queryDef view.xmlState
        · -- the open query definition goes on
          have noQueryDef := elements_eq_nil_of_inside children noSlash
            ((inside_cons_iff noSlash).mpr (Or.inr inside))
          have stillAbsent := afterQueryDef.trans
            (by simp [isQueryDef, noQueryDef] : _ = false)
          rw [ihRest afterwards stillAbsent, passes.xmlState, queriesKnown_inside noSlash inside,
            queryEvent_end_iff name inner
              (inner.queryDef.trans (by simp [unknown, noQueryDef, step_start_xmlState]))]
          exact and_left_comm
        · -- a query definition may follow
          have outside : ¬Inside .queryDef (name.1 :: view.xmlState) := fun insideIt =>
            ((inside_cons_iff noSlash).mp insideIt).elim isQueryDef inside
          have noQuery : place (name.1 :: view.xmlState) ≠ some .query := by
            intro isQuery
            have isInside : Inside .queryDef Place.query.xmlState := List.suffix_cons _ _
            exact outside (inside_of_place noSlash isQuery isInside)
          rw [and_iff_right (endSound noQuery), queriesKnown_outside isQueryDef inside outside]
          cases found : children.elements .queryDef (name.1 :: view.xmlState) with
          | nil =>
              have stillAbsent := afterQueryDef.trans (by simp [isQueryDef, found] : _ = false)
              rw [ihRest afterwards stillAbsent, passes.xmlState]
              simp
          | cons first others =>
              have restSound := eachStep_queryEvent_of_queryDef
                (afterQueryDef.trans (by simp [found])) rest.events
              simp [restSound]

theorem ready_create : View.create.Ready where
  noSlash := by simp [NoSlash, create]
  request := fun _ => rfl
  version := fun _ => rfl
  inRequest := by
    intro inside
    exact absurd (List.suffix_nil.mp inside) (by decide)
  inVersion := by
    intro inside
    exact absurd (List.suffix_nil.mp inside) (by decide)

end View

/-! ## Documents -/

/-- The events of a document. -/
def Document.events (document : Document) : List Event := document.content.events

/-- Every request has a path, and the first query definition has an id or no queries with a text. -/
structure Document.Complete (document : Document) : Prop where
  requests : ∀ request ∈ document.elements .request, View.has request.1 "path" = true
  queryDefs : ∀ first ∈ (document.elements .queryDef).head?,
    View.has first.1 "id" = true ∨
      ∀ query ∈ first.2.elements .query queryDefState,
        ∀ byte ∈ query.2.trailingText [], byte ∈ miutil.blanks

/-- The events of a document are sound for the automaton exactly when the document is complete. -/
theorem Document.eachStep_sound_iff (document : Document) :
    Runs.EachStep View.step View.Sound View.create document.events ↔ document.Complete := by
  have sound : View.Sound = fun view event => view.RequestEvent event ∧ view.QueryEvent event := by
    funext view event
    exact propext (view.sound_iff event)
  have outside : ¬Inside .queryDef View.create.xmlState := fun inside =>
    absurd (List.suffix_nil.mp inside) (by decide)
  rw [sound, Runs.eachStep_and, Document.events,
    View.ready_create.eachStep_requestEvent_iff document.content,
    View.ready_create.toBetween.eachStep_queryEvent_iff rfl document.content, View.QueriesKnown,
    if_neg outside]
  have blank : ∀ query : AttributeMap × Content, View.IsBlank query ↔
      ∀ byte ∈ query.2.trailingText [], byte ∈ miutil.blanks :=
    fun query => queryText_eq_nil_iff _
  simp only [blank]
  exact ⟨fun both => ⟨both.1, both.2⟩, fun complete => ⟨complete.requests, complete.queryDefs⟩⟩

/-- No handler of an event of a document uses a null pointer or an iterator that is not assigned, or
pops an empty state. -/
def Document.Safe {F : Type} [Floats F] (surroundings : Surroundings F) (document : Document) :
    Prop :=
  Runs.EachStep (ConfigParser.next surroundings) (ConfigParser.SafeAt surroundings)
    (.ok ConfigParser.create) document.events

/-- A safe run ends in no other failure than a thrown exception. -/
theorem ConfigParser.onlyThrows_run {F : Type} [Floats F] {surroundings : Surroundings F}
    {events : List Event} {result : Except Failure (ConfigParser F)}
    (onlyThrows : OnlyThrows result)
    (safe : Runs.EachStep (ConfigParser.next surroundings) (ConfigParser.SafeAt surroundings)
      result events) :
    OnlyThrows (Runs.run (ConfigParser.next surroundings) result events) := by
  induction events generalizing result with
  | nil => exact onlyThrows
  | cons event rest ih =>
      refine ih ?_ safe.2
      cases result with
      | error failure => exact onlyThrows
      | ok parser => exact safe.1.1

/-- Complete documents are safe, and safe documents whose events are all handled are complete. -/
theorem Document.safe_of_complete {F : Type} [Floats F] (surroundings : Surroundings F)
    (document : Document) :
    (document.Complete → document.Safe surroundings) ∧
      (document.Safe surroundings →
        (∃ last, Runs.run (ConfigParser.next surroundings) (.ok ConfigParser.create)
          document.events = .ok last) → document.Complete) := by
  constructor
  · intro complete
    exact ConfigParser.safe_of_sound (document.eachStep_sound_iff.mpr complete)
  · rintro safe ⟨last, returns⟩
    exact document.eachStep_sound_iff.mp (ConfigParser.sound_of_safe safe returns)

/-- Surroundings without files. -/
def noFiles : Surroundings ℚ := ⟨fun _ => (none, []), fun _ => none, 0⟩

/-- An element name of an ASCII literal. -/
def elementName (literal : String) (noSlash : Bytes.chr '/' ∉ Bytes.str literal) : ElementName :=
  ⟨Bytes.str literal, noSlash⟩

theorem noSlash_wdb2ts : Bytes.chr '/' ∉ Bytes.str "wdb2ts" := by decide

theorem noSlash_querydefs : Bytes.chr '/' ∉ Bytes.str "querydefs" := by decide

theorem noSlash_querydef : Bytes.chr '/' ∉ Bytes.str "querydef" := by decide

theorem noSlash_query : Bytes.chr '/' ∉ Bytes.str "query" := by decide

/-- `<wdb2ts><requests><request path="forecast"/></requests></wdb2ts>`. -/
def requestWithPath : Document :=
  { name := elementName "wdb2ts" noSlash_wdb2ts
    attributes := ∅
    children :=
      .element (elementName "requests" (by decide)) ∅
        (.element (elementName "request" (by decide))
          (.ofList [(Bytes.str "path", Bytes.str "forecast")]) .nil .nil) .nil }

theorem safe_of_complete_requestWithPath :
    requestWithPath.Safe noFiles ∧ requestWithPath.Complete := by
  have complete : requestWithPath.Complete := by
    constructor
    · decide +kernel
    · intro first isFirst
      cases isFirst
  have safe := (Document.safe_of_complete noFiles requestWithPath).1 complete
  exact ⟨safe, (Document.safe_of_complete noFiles requestWithPath).2 safe ⟨_, rfl⟩⟩

/-- `<wdb2ts><requests><request/></requests></wdb2ts>`. -/
def requestWithoutPath : Document :=
  { name := elementName "wdb2ts" noSlash_wdb2ts
    attributes := ∅
    children :=
      .element (elementName "requests" (by decide)) ∅
        (.element (elementName "request" (by decide)) ∅ .nil .nil) .nil }

/-- `<wdb2ts><querydefs><querydef><query>SELECT</query></querydef></querydefs></wdb2ts>`. -/
def queryDefWithoutId : Document :=
  { name := elementName "wdb2ts" noSlash_wdb2ts
    attributes := ∅
    children :=
      .element (elementName "querydefs" noSlash_querydefs) ∅
        (.element (elementName "querydef" noSlash_querydef) ∅
          (.element (elementName "query" noSlash_query) ∅ (.text (Bytes.str "SELECT") .nil) .nil)
          .nil) .nil }

/-- A request without a path is resolved through a null pointer, and a query of a definition
without an id is added through an iterator that is not assigned. -/
theorem unsafe_documents :
    ¬requestWithoutPath.Safe noFiles ∧ ¬queryDefWithoutId.Safe noFiles := by
  constructor
  · intro safe
    have throws := ConfigParser.onlyThrows_run (onlyThrows_pure _) safe .nullRequest rfl
    cases throws
  · intro safe
    have throws := ConfigParser.onlyThrows_run (onlyThrows_pure _) safe .uninitialisedQueryDef rfl
    cases throws

end config

end Wdb2ts
