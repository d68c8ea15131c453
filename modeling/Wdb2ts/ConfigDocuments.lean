import Wdb2ts.ConfigView

/-!
# Safe documents

A well-formed document gives the parser the events of its elements and texts.  The handlers use
what an earlier element has set, which is there exactly when every request has a path, and the
first query definition has an id or no queries with a text.
-/

namespace Wdb2ts

namespace config

/-- The name of an element, which has no slash. -/
abbrev ElementName := { name : Bytes // Bytes.chr '/' ∉ name }

/-- What stands between the tags of an element: texts and elements, in their order. -/
inductive Content where
  | nil
  | text (chars : Bytes) (rest : Content)
  | element (name : ElementName) (attributes : AttributeMap) (children rest : Content)

namespace Content

/-- The events of a content. -/
def events : Content → List Event
  | nil => []
  | text chars rest => .characters chars :: rest.events
  | element name attributes children rest =>
      .startElement name attributes :: (children.events ++ .endElement name :: rest.events)

/-- The elements at a place, with their contents, in a content below a state. -/
def elements (wanted : Place) : (xmlState : List Bytes) → Content → List (AttributeMap × Content)
  | _, nil => []
  | xmlState, text _ rest => rest.elements wanted xmlState
  | xmlState, element name attributes children rest =>
      (if place (name :: xmlState) = some wanted then [(attributes, children)] else []) ++
        (children.elements wanted (name :: xmlState) ++ rest.elements wanted xmlState)

/-- What holds of the elements at a place holds of an element there and of those in it and behind
it. -/
theorem forall_elements_iff {wanted : Place} {xmlState : List Bytes} {name : ElementName}
    {attributes : AttributeMap} {children rest : Content} {holds : AttributeMap × Content → Prop} :
    (∀ found ∈ (element name attributes children rest).elements wanted xmlState, holds found) ↔
      (place (name :: xmlState) = some wanted → holds (attributes, children)) ∧
        (∀ found ∈ children.elements wanted (name :: xmlState), holds found) ∧
          ∀ found ∈ rest.elements wanted xmlState, holds found := by
  simp only [elements, List.mem_append, or_imp, forall_and]
  apply and_congr
  · split
    · next isWanted => simp [isWanted]
    · next other => simp [other]
  · rfl

/-- The text behind the last element, or all of it if there is none, with the text before. -/
def trailingText : Content → (before : Bytes) → Bytes
  | nil, before => before
  | text chars rest, before => rest.trailingText (before ++ chars)
  | element _ _ _ rest, _ => rest.trailingText []

end Content

/-- A document is one element. -/
structure Document where
  name : ElementName
  attributes : AttributeMap
  children : Content

namespace Document

/-- The document as the content of a file. -/
def content (document : Document) : Content :=
  .element document.name document.attributes document.children .nil

/-- The elements of a document at a place, with their contents. -/
def elements (document : Document) (wanted : Place) : List (AttributeMap × Content) :=
  document.content.elements wanted []

end Document

/-! ## Places -/

/-- The state in a request, which begins with the innermost name. -/
def requestState : List Bytes := [Bytes.str "request", Bytes.str "requests", Bytes.str "wdb2ts"]

/-- The state in a version. -/
def versionState : List Bytes := Bytes.str "version" :: requestState

/-- The state in a query definition. -/
def queryDefState : List Bytes := [Bytes.str "querydef", Bytes.str "querydefs", Bytes.str "wdb2ts"]

/-- The state in the parameter definitions of an owner. -/
def paramDefsState : Owner → List Bytes
  | .configuration => [Bytes.str "paramdefs", Bytes.str "wdb2ts"]
  | .request => Bytes.str "paramdefs" :: requestState
  | .version => Bytes.str "paramdefs" :: versionState

/-- The state in a parameter definition of an owner. -/
def paramDefState (owner : Owner) : List Bytes := Bytes.str "paramdef" :: paramDefsState owner

/-- The state at a place. -/
def Place.xmlState : Place → List Bytes
  | .include_ => [Bytes.str "include", Bytes.str "wdb2ts"]
  | .request => requestState
  | .requestActionParam => Bytes.str "actionparam" :: requestState
  | .version => versionState
  | .versionActionParam => Bytes.str "actionparam" :: versionState
  | .queryDef => queryDefState
  | .query => Bytes.str "query" :: queryDefState
  | .paramDefs owner => paramDefsState owner
  | .paramDef owner => config.paramDefState owner
  | .valueParameter => Bytes.str "valueparameter" :: config.paramDefState .configuration
  | .levelParameter => Bytes.str "levelparameter" :: config.paramDefState .configuration
  | .value => Bytes.str "value" :: config.paramDefState .configuration
  | .dataVersion => Bytes.str "dataversion" :: config.paramDefState .configuration

/-- No name of a state has a slash. -/
def NoSlash (xmlState : List Bytes) : Prop := ∀ name ∈ xmlState, Bytes.chr '/' ∉ name

instance (xmlState : List Bytes) : Decidable (NoSlash xmlState) :=
  inferInstanceAs (Decidable (∀ name ∈ xmlState, _))

theorem takeWhile_name {name : Bytes} (noSlash : Bytes.chr '/' ∉ name) (names : List Bytes) :
    (name ++ names.flatMap fun name => Bytes.chr '/' :: name).takeWhile
      (fun byte => byte ≠ Bytes.chr '/') = name := by
  rw [List.takeWhile_append_of_pos]
  · cases names with
    | nil => simp
    | cons other rest => simp
  · intro byte member
    have different : byte ≠ Bytes.chr '/' := fun same => noSlash (same ▸ member)
    simpa using different

/-- A path has the names of one state. -/
theorem flatMap_name_injective {names others : List Bytes} (noSlash : NoSlash names)
    (otherNoSlash : NoSlash others)
    (same : (names.flatMap fun name => Bytes.chr '/' :: name) =
      others.flatMap fun name => Bytes.chr '/' :: name) : names = others := by
  induction names generalizing others with
  | nil =>
      cases others with
      | nil => rfl
      | cons other rest => simp at same
  | cons name names ih =>
      cases others with
      | nil => simp at same
      | cons other rest =>
          rw [List.flatMap_cons, List.flatMap_cons, List.cons_append, List.cons_append,
            List.cons.injEq] at same
          have sameName := congrArg (List.takeWhile fun byte => byte ≠ Bytes.chr '/') same.2
          rw [takeWhile_name (noSlash name List.mem_cons_self),
            takeWhile_name (otherNoSlash other List.mem_cons_self)] at sameName
          have sameRest := same.2
          rw [sameName, List.append_cancel_left_eq] at sameRest
          rw [sameName, ih (fun name member => noSlash name (List.mem_cons_of_mem _ member))
            (fun name member => otherNoSlash name (List.mem_cons_of_mem _ member)) sameRest]

theorem path_injective {xmlState other : List Bytes} (noSlash : NoSlash xmlState)
    (otherNoSlash : NoSlash other) (same : path xmlState = path other) : xmlState = other := by
  apply List.reverse_injective
  exact flatMap_name_injective (fun name member => noSlash name (List.mem_reverse.mp member))
    (fun name member => otherNoSlash name (List.mem_reverse.mp member)) same

/-- The paths of the table are those of the states, which have no slash in a name. -/
theorem places_spec : ∀ entry ∈ places, entry.1 = path entry.2.xmlState ∧
    place entry.2.xmlState = some entry.2 ∧ NoSlash entry.2.xmlState := by
  decide +kernel

theorem mem_places (wanted : Place) : wanted ∈ places.map Prod.snd := by
  cases wanted with
  | paramDefs owner => cases owner <;> decide
  | paramDef owner => cases owner <;> decide
  | _ => decide

theorem Place.noSlash_xmlState (wanted : Place) : NoSlash wanted.xmlState := by
  obtain ⟨entry, member, rfl⟩ := List.mem_map.mp (mem_places wanted)
  exact (places_spec entry member).2.2

theorem place_xmlState (wanted : Place) : place wanted.xmlState = some wanted := by
  obtain ⟨entry, member, rfl⟩ := List.mem_map.mp (mem_places wanted)
  exact (places_spec entry member).2.1

/-- The parser is at a place in exactly one state. -/
theorem place_eq_some_iff {xmlState : List Bytes} (noSlash : NoSlash xmlState) (wanted : Place) :
    place xmlState = some wanted ↔ xmlState = wanted.xmlState := by
  constructor
  · intro found
    obtain ⟨before, behind, split, _⟩ := List.lookup_eq_some_iff.mp found
    have listed : (path xmlState, wanted) ∈ places := by
      rw [split]
      simp
    exact path_injective noSlash wanted.noSlash_xmlState (places_spec _ listed).1
  · rintro rfl
    exact place_xmlState wanted

/-- The innermost element of a place, or an element around it, is the wanted one. -/
def Inside (wanted : Place) (xmlState : List Bytes) : Prop := wanted.xmlState <:+ xmlState

instance (wanted : Place) (xmlState : List Bytes) : Decidable (Inside wanted xmlState) :=
  inferInstanceAs (Decidable (_ <:+ _))

theorem inside_cons_iff {wanted : Place} {name : Bytes} {xmlState : List Bytes}
    (noSlash : NoSlash (name :: xmlState)) :
    Inside wanted (name :: xmlState) ↔
      place (name :: xmlState) = some wanted ∨ Inside wanted xmlState := by
  rw [Inside, List.suffix_cons_iff, place_eq_some_iff noSlash, eq_comm, Inside]

/-- An element at a place is not in another one at the place. -/
theorem not_inside_of_place {wanted : Place} {name : Bytes} {xmlState : List Bytes}
    (noSlash : NoSlash (name :: xmlState)) (found : place (name :: xmlState) = some wanted) :
    ¬Inside wanted xmlState := by
  intro inside
  have same := (place_eq_some_iff noSlash wanted).mp found
  have shorter := inside.length_le
  rw [← same, List.length_cons] at shorter
  omega

/-- The elements that rely on another one are in it. -/
theorem inside_of_place {wanted other : Place} {xmlState : List Bytes} (noSlash : NoSlash xmlState)
    (found : place xmlState = some other) (inside : Inside wanted other.xmlState) :
    Inside wanted xmlState := by
  rwa [(place_eq_some_iff noSlash other).mp found]

end config

end Wdb2ts
