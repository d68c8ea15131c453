import Wdb2ts.Lib.LinkedList
import Wdb2ts.NoteManager

/-!
# The listeners of a note

A helper keeps the listeners of each note in a linked list.  `addListener` looks for the listener
first.  `removeListener` erases the listener inside the loop that looks for it, and then increments
the iterator of the erased node.
-/

namespace Wdb2ts

/-! ## The code -/

/-- The loop of `removeListener`. -/
def removeListenerLoop (l : Listener) :
    ℕ → LinkedList Listener → LinkedList.Iterator → Except Fault (LinkedList Listener)
  | 0, _, _ => .error .endless
  | rounds + 1, listeners, it =>
      if it = none then .ok listeners
      else do
        let listeners ← if (← listeners.get it) = l then listeners.erase it else .ok listeners
        let next ← listeners.next it
        removeListenerLoop l rounds listeners next

/-- `NoteListenerElement::removeListener`. -/
def NoteListenerElement.removeListener {C : Type} (element : NoteListenerElement C)
    (l : Listener) : Except Fault (NoteListenerElement C) := do
  let list := LinkedList.ofList element.listeners
  let rest ← removeListenerLoop l (list.nodes.length + 1) list list.first
  return { element with listeners := rest.values }

/-- The calls that register and remove listeners. -/
inductive NoteListenerCall where
  | addNoteListener (noteName : Bytes) (noteListener : Listener)
  | removeNoteListener (noteName : Bytes) (noteListener : Listener)

namespace NoteHelper

variable {C : Type}

/-- `NoteHelper::removeNoteListener`. -/
def removeNoteListener (helper : NoteHelper C) (noteName : Bytes) (noteListener : Listener) :
    Except Fault (NoteHelper C) :=
  match helper.notes.find? noteName with
  | none => .ok helper
  | some element => do
      let element ← element.removeListener noteListener
      if element.listeners.isEmpty then return ⟨helper.notes.erase noteName⟩
      else return ⟨helper.notes.insert noteName element⟩

/-- One call. -/
def call (helper : NoteHelper C) : NoteListenerCall → Except Fault (NoteHelper C)
  | .addNoteListener noteName noteListener => .ok (helper.addNoteListener noteName noteListener)
  | .removeNoteListener noteName noteListener =>
      helper.removeNoteListener noteName noteListener

/-- A new helper after a sequence of calls. -/
def afterCalls (C : Type) (calls : List NoteListenerCall) : Except Fault (NoteHelper C) :=
  calls.foldlM call ⟨∅⟩

/-- The listeners of a note. -/
def listenersOf (helper : NoteHelper C) (noteName : Bytes) : List Listener :=
  match helper.notes.find? noteName with
  | none => []
  | some element => element.listeners

end NoteHelper

/-! ## What it is for -/

/-- The listener is added to the note, and not removed from it later. -/
def Registered (calls : List NoteListenerCall) (noteName : Bytes) (noteListener : Listener) :
    Prop :=
  ∃ earlier later, calls = earlier ++ .addNoteListener noteName noteListener :: later ∧
    .removeNoteListener noteName noteListener ∉ later

/-- Each note lists each of its registered listeners once, and no other. -/
structure ListsRegistered {C : Type} (calls : List NoteListenerCall) (helper : NoteHelper C) :
    Prop where
  nodup : ∀ noteName, (helper.listenersOf noteName).Nodup
  mem_iff : ∀ noteName noteListener, noteListener ∈ helper.listenersOf noteName ↔
    Registered calls noteName noteListener

/-- No call of a sequence goes on from an erased node, and the lists are right after each. -/
def KeepsListeners (C : Type) (calls : List NoteListenerCall) : Prop :=
  ∀ earlier, earlier <+: calls →
    ∃ helper, NoteHelper.afterCalls C earlier = .ok helper ∧ ListsRegistered earlier helper

/-- No call removes a listener that is registered. -/
def RemovesUnregistered (calls : List NoteListenerCall) : Prop :=
  ∀ earlier noteName noteListener,
    earlier ++ [.removeNoteListener noteName noteListener] <+: calls →
      ¬Registered earlier noteName noteListener

/-! ## One call -/

/-- The loop returns the list without a change, or fails at the listener it looks for. -/
theorem removeListenerLoop_eq (l : Listener) {listeners : LinkedList Listener}
    {before after : List (ℕ × Listener)} (split : listeners.nodes = before ++ after) :
    removeListenerLoop l (after.length + 1) listeners (after.head?.map Prod.fst) =
      if l ∈ after.map Prod.snd then .error .iterator else .ok listeners := by
  induction after generalizing before with
  | nil => rfl
  | cons node rest ih =>
      obtain ⟨address, value⟩ := node
      rw [removeListenerLoop, if_neg (by simp)]
      simp only [List.head?_cons, Option.map_some, LinkedList.get_eq split, bind, Except.bind]
      by_cases found : value = l
      · rcases LinkedList.exists_erase_next split with ⟨erased, isErased, noNext⟩
        rw [if_pos found, isErased, if_pos (by simp [found])]
        dsimp only
        rw [noNext]
      · have restSplit : listeners.nodes = (before ++ [(address, value)]) ++ rest := by
          rw [split, List.append_assoc, List.singleton_append]
        have member : l ∈ ((address, value) :: rest).map Prod.snd ↔ l ∈ rest.map Prod.snd := by
          simp [Ne.symm found]
        rw [if_neg found, LinkedList.next_eq split]
        dsimp only
        rw [List.length_cons, ih restSplit]
        simp only [member]

namespace NoteListenerElement

variable {C : Type} {element : NoteListenerElement C} {l : Listener}

theorem removeListener_of_mem (member : l ∈ element.listeners) :
    element.removeListener l = .error .iterator := by
  have loop := removeListenerLoop_eq l
    (List.nil_append (LinkedList.ofList element.listeners).nodes).symm
  have found : l ∈ (LinkedList.ofList element.listeners).nodes.map Prod.snd := by
    rw [← LinkedList.values, LinkedList.values_ofList]
    exact member
  rw [if_pos found] at loop
  simp only [removeListener, LinkedList.first, loop, bind, Except.bind]

theorem removeListener_of_notMem (absent : l ∉ element.listeners) :
    element.removeListener l = .ok element := by
  have loop := removeListenerLoop_eq l
    (List.nil_append (LinkedList.ofList element.listeners).nodes).symm
  have notFound : l ∉ (LinkedList.ofList element.listeners).nodes.map Prod.snd := by
    rw [← LinkedList.values, LinkedList.values_ofList]
    exact absent
  rw [if_neg notFound] at loop
  simp only [removeListener, LinkedList.first, loop, bind, Except.bind, LinkedList.values_ofList]
  rfl

end NoteListenerElement

namespace NoteHelper

variable {C : Type} (helper : NoteHelper C) (noteName : Bytes) (noteListener : Listener)

theorem listenersOf_addNoteListener (other : Bytes) :
    (helper.addNoteListener noteName noteListener).listenersOf other =
      if other = noteName ∧ noteListener ∉ helper.listenersOf noteName then
        helper.listenersOf noteName ++ [noteListener]
      else helper.listenersOf other := by
  by_cases same : other = noteName
  · subst same
    cases held : helper.notes.find? other with
    | none => simp [listenersOf, addNoteListener, held]
    | some element =>
        by_cases member : noteListener ∈ element.listeners
        · simp [listenersOf, addNoteListener, NoteListenerElement.addListener, held, member]
        · simp [listenersOf, addNoteListener, NoteListenerElement.addListener, held, member]
  · rw [if_neg fun both => same both.1]
    cases held : helper.notes.find? noteName with
    | none => simp [listenersOf, addNoteListener, held, SortedMap.find?_insert_of_ne _ same]
    | some element =>
        simp [listenersOf, addNoteListener, held, SortedMap.find?_insert_of_ne _ same]

variable {helper noteName noteListener}

theorem removeNoteListener_of_mem (member : noteListener ∈ helper.listenersOf noteName) :
    helper.removeNoteListener noteName noteListener = .error .iterator := by
  cases held : helper.notes.find? noteName with
  | none =>
      rw [listenersOf, held] at member
      cases member
  | some element =>
      rw [listenersOf, held] at member
      rw [removeNoteListener, held]
      simp only [NoteListenerElement.removeListener_of_mem member, bind, Except.bind]

/-- A listener that a note does not list is removed from it without a change of any list. -/
theorem removeNoteListener_of_notMem (absent : noteListener ∉ helper.listenersOf noteName) :
    ∃ after, helper.removeNoteListener noteName noteListener = .ok after ∧
      ∀ other, after.listenersOf other = helper.listenersOf other := by
  cases held : helper.notes.find? noteName with
  | none =>
      refine ⟨helper, ?_, fun _ => rfl⟩
      rw [removeNoteListener, held]
  | some element =>
      rw [listenersOf, held] at absent
      rw [removeNoteListener, held]
      simp only [NoteListenerElement.removeListener_of_notMem absent, bind, Except.bind]
      by_cases isEmpty : element.listeners.isEmpty
      · rw [if_pos isEmpty]
        refine ⟨_, rfl, ?_⟩
        intro other
        by_cases same : other = noteName
        · subst same
          simp [listenersOf, held, SortedMap.find?_erase, List.isEmpty_iff.mp isEmpty]
        · simp [listenersOf, SortedMap.find?_erase, same]
      · rw [if_neg isEmpty]
        refine ⟨_, rfl, ?_⟩
        intro other
        by_cases same : other = noteName
        · subst same
          simp [listenersOf, held]
        · simp [listenersOf, SortedMap.find?_insert_of_ne _ same]

end NoteHelper

/-! ## Registrations -/

section Registrations

variable {calls : List NoteListenerCall} {noteName other : Bytes} {noteListener l : Listener}

theorem not_registered_nil : ¬Registered [] noteName noteListener := by
  intro registered
  rcases registered with ⟨earlier, later, split, _⟩
  simp at split

/-- A registration is the last call, or was made before it and is not removed by it. -/
theorem registered_append {last : NoteListenerCall} :
    Registered (calls ++ [last]) noteName noteListener ↔
      last = .addNoteListener noteName noteListener ∨
        Registered calls noteName noteListener ∧
          last ≠ .removeNoteListener noteName noteListener := by
  constructor
  · intro registered
    rcases registered with ⟨earlier, later, split, kept⟩
    rcases later.eq_nil_or_concat with isNil | ⟨front, final, isConcat⟩
    · subst isNil
      exact Or.inl (List.singleton_inj.mp (List.append_inj' split rfl).2)
    · rw [List.concat_eq_append] at isConcat
      subst isConcat
      rw [← List.cons_append, ← List.append_assoc] at split
      rcases List.append_inj' split rfl with ⟨same, final_eq⟩
      rw [List.mem_append, not_or, ← final_eq, List.mem_singleton] at kept
      exact Or.inr ⟨⟨earlier, front, same, kept.1⟩, Ne.symm kept.2⟩
  · intro registered
    rcases registered with isLast | ⟨⟨earlier, later, split, kept⟩, notRemoved⟩
    · exact ⟨calls, [], by rw [isLast], List.not_mem_nil⟩
    · refine ⟨earlier, later ++ [last], by rw [split, List.append_assoc, List.cons_append], ?_⟩
      rw [List.mem_append, List.mem_singleton, not_or]
      exact ⟨kept, Ne.symm notRemoved⟩

end Registrations

/-! ## All calls -/

section Calls

variable {C : Type} {calls : List NoteListenerCall} {helper : NoteHelper C} {noteName : Bytes}
  {noteListener : Listener}

theorem listsRegistered_nil : ListsRegistered [] (⟨∅⟩ : NoteHelper C) where
  nodup _ := List.nodup_nil
  mem_iff _ _ := by
    constructor
    · intro member
      cases member
    · intro registered
      exact absurd registered not_registered_nil

theorem ListsRegistered.afterAdd (lists : ListsRegistered calls helper) :
    ListsRegistered (calls ++ [.addNoteListener noteName noteListener])
      (helper.addNoteListener noteName noteListener) where
  nodup other := by
    rw [NoteHelper.listenersOf_addNoteListener]
    split
    case isTrue isNew =>
      apply List.Nodup.append (lists.nodup noteName) (List.nodup_singleton _)
      rw [List.disjoint_singleton]
      exact isNew.2
    case isFalse => exact lists.nodup other
  mem_iff other l := by
    rw [NoteHelper.listenersOf_addNoteListener, registered_append, ← lists.mem_iff]
    by_cases same : other = noteName
    · subst same
      by_cases listed : noteListener ∈ helper.listenersOf other
      · rw [if_neg fun isNew => isNew.2 listed]
        constructor
        · exact fun member => Or.inr ⟨member, by simp⟩
        · intro registered
          rcases registered with isAdded | ⟨member, _⟩
          · cases isAdded
            exact listed
          · exact member
      · simp [listed, or_comm, eq_comm]
    · simp [same, Ne.symm same]

/-- A call that removes no registered listener keeps the lists right. -/
theorem ListsRegistered.afterRemove (lists : ListsRegistered calls helper)
    (notRegistered : ¬Registered calls noteName noteListener) :
    ∃ after, helper.removeNoteListener noteName noteListener = .ok after ∧
      ListsRegistered (calls ++ [.removeNoteListener noteName noteListener]) after := by
  rw [← lists.mem_iff] at notRegistered
  rcases NoteHelper.removeNoteListener_of_notMem notRegistered with ⟨after, returns, same⟩
  refine ⟨after, returns, ?_, ?_⟩
  · intro other
    rw [same]
    exact lists.nodup other
  · intro other l
    rw [same, lists.mem_iff, registered_append, ← lists.mem_iff]
    constructor
    · intro member
      refine Or.inr ⟨member, ?_⟩
      intro removed
      cases removed
      exact notRegistered member
    · intro registered
      rcases registered with isAdded | ⟨member, _⟩
      · cases isAdded
      · exact member

theorem NoteHelper.afterCalls_append (last : NoteListenerCall) :
    NoteHelper.afterCalls C (calls ++ [last]) =
      (NoteHelper.afterCalls C calls).bind fun helper => helper.call last := by
  simp only [afterCalls, List.foldlM_append, List.foldlM_cons, List.foldlM_nil, bind_pure]
  rfl

/-- The calls keep the lists right when they remove no registered listener. -/
theorem exists_listsRegistered (C : Type) (removes : RemovesUnregistered calls) :
    ∃ helper, NoteHelper.afterCalls C calls = .ok helper ∧ ListsRegistered calls helper := by
  induction calls using List.reverseRecOn with
  | nil => exact ⟨_, rfl, listsRegistered_nil⟩
  | append_singleton earlier last ih =>
      have before : RemovesUnregistered earlier := by
        intro first name l isPrefix
        exact removes first name l (isPrefix.trans (List.prefix_append _ _))
      rcases ih before with ⟨helper, runs, lists⟩
      rw [NoteHelper.afterCalls_append, runs]
      cases last with
      | addNoteListener name l => exact ⟨_, rfl, lists.afterAdd⟩
      | removeNoteListener name l =>
          exact lists.afterRemove (removes earlier name l (List.prefix_refl _))

/-- The helper keeps its lists exactly when no call removes a listener that is registered. -/
theorem keepsListeners_iff (C : Type) (calls : List NoteListenerCall) :
    KeepsListeners C calls ↔ RemovesUnregistered calls := by
  constructor
  · intro keeps earlier name l isPrefix registered
    rcases keeps earlier ((List.prefix_append _ _).trans isPrefix) with ⟨helper, runs, lists⟩
    rcases keeps _ isPrefix with ⟨after, goesOn, _⟩
    have member := (lists.mem_iff name l).mpr registered
    rw [NoteHelper.afterCalls_append, runs] at goesOn
    change helper.removeNoteListener name l = .ok after at goesOn
    rw [NoteHelper.removeNoteListener_of_mem member] at goesOn
    cases goesOn
  · intro removes earlier isPrefix
    apply exists_listsRegistered
    intro first name l firstPrefix
    exact removes first name l (firstPrefix.trans isPrefix)

end Calls

/-- A listener is added and removed: the loop increments the iterator of the erased node. -/
theorem not_keepsListeners_addRemove :
    ¬KeepsListeners ℕ
      [.addNoteListener (Bytes.str "note") 1, .removeNoteListener (Bytes.str "note") 1] := by
  intro keeps
  rcases keeps _ (List.prefix_refl _) with ⟨helper, runs, _⟩
  have fails : NoteHelper.afterCalls ℕ
      [.addNoteListener (Bytes.str "note") 1, .removeNoteListener (Bytes.str "note") 1] =
        .error .iterator := by rfl
  rw [fails] at runs
  cases runs

end Wdb2ts
