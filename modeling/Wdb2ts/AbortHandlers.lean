import Wdb2ts.Lib.Runs
import Wdb2ts.Lib.SortedMap

/-!
# Abort handlers

A request may register handlers that are called when its client goes away.  They are kept by
the `ApacheAbortHandlerManager`, whose own thread looks at the connections of their requests
from time to time, and a request is to leave none behind.

The operations of the manager hold its mutex, so the threads take turns at them.
-/

namespace Wdb2ts

/-- `ApacheAbortHandlerManager::AbortHandlerHelper`. -/
structure AbortHandlerHelper (ρ η : Type) where
  req : ρ
  handler : η

/-- What happens to an abort handler. -/
inductive HandlerEvent (η : Type) where
  | registered (handler : η)
  | onAbort (handler : η)
  | destroyed (handler : η)
  deriving DecidableEq

/-- The handler of an event. -/
def HandlerEvent.handler {η : Type} : HandlerEvent η → η
  | .registered handler | .onAbort handler | .destroyed handler => handler

/-- The members of an `ApacheAbortHandlerManager`, and what has happened to the handlers. -/
structure ApacheAbortHandlerManager (ρ η : Type) where
  nextId : ℕ
  handlerMap : SortedMap ℕ (AbortHandlerHelper ρ η)
  events : List (HandlerEvent η)

namespace ApacheAbortHandlerManager

variable {τ ρ η : Type}

/-- `ApacheAbortHandlerManager()`. -/
def new : ApacheAbortHandlerManager ρ η :=
  { nextId := 1
    handlerMap := SortedMap.empty
    events := [] }

/-- Erase an entry, after the given events of its handler. -/
def erase (manager : ApacheAbortHandlerManager ρ η) (ends : η → List (HandlerEvent η)) (id : ℕ) :
    ApacheAbortHandlerManager ρ η :=
  match manager.handlerMap.find? id with
  | none => manager
  | some helper =>
      { manager with
        handlerMap := manager.handlerMap.erase id
        events := manager.events ++ ends helper.handler }

/-- The events of a handler that is removed. -/
def removal (handler : η) : List (HandlerEvent η) := [.destroyed handler]

/-- The events of a handler whose connection is aborted. -/
def abortion (handler : η) : List (HandlerEvent η) := [.onAbort handler, .destroyed handler]

/-- `checkAboretedConnections`, with the requests whose connections are aborted. -/
def checkAboretedConnections (aborted : ρ → Bool) (manager : ApacheAbortHandlerManager ρ η) :
    ApacheAbortHandlerManager ρ η :=
  manager.handlerMap.entries.foldl
    (fun manager entry =>
      if aborted entry.2.req then manager.erase abortion entry.1 else manager) manager

/-- `registerAbortHandler`, with whether there is memory for the entry.  The ids are
`unsigned long`. -/
def registerAbortHandler (manager : ApacheAbortHandlerManager ρ η) (req : ρ) (handler : η)
    (allocated : Bool) : ApacheAbortHandlerManager ρ η × ℕ :=
  let manager := { manager with events := manager.events ++ [.registered handler] }
  if allocated then
    ({ manager with
        nextId := (manager.nextId + 1) % 2 ^ 64
        handlerMap := manager.handlerMap.insert manager.nextId ⟨req, handler⟩ },
      manager.nextId)
  else (manager, 0)

/-- `removeAbortHandler`. -/
def removeAbortHandler (manager : ApacheAbortHandlerManager ρ η) (handlerId : ℕ) :
    ApacheAbortHandlerManager ρ η :=
  manager.erase removal handlerId

/-- `removeAllAbortHandler`. -/
def removeAllAbortHandler (manager : ApacheAbortHandlerManager ρ η) (idList : List ℕ) :
    ApacheAbortHandlerManager ρ η :=
  idList.foldl removeAbortHandler manager

end ApacheAbortHandlerManager

/-! ## The threads -/

/-- What a thread keeps of the request that it handles: the members of the `AbortHandlerHelper`
in its `ThreadData`. -/
structure ThreadData (ρ : Type) where
  req : ρ
  idList : List ℕ

/-- The manager and the threads. -/
structure AbortHandlers (τ ρ η : Type) where
  manager : ApacheAbortHandlerManager ρ η
  threadData : τ → Option (ThreadData ρ)

namespace AbortHandlers

variable {τ ρ η : Type}

/-- What a thread does next, or the thread of the manager.  `allocated` tells whether there is
memory. -/
inductive Action (τ ρ η : Type) where
  | prepareThreadData (thread : τ) (req : ρ) (allocated : Bool)
  | registerAbortHandler (thread : τ) (handler : η) (allocated : Bool)
  | removeAbortHandler (thread : τ) (handlerId : ℕ)
  | cleanupThreadData (thread : τ)
  | checkAboretedConnections (aborted : ρ → Bool)

/-- Before the first request. -/
def initial : AbortHandlers τ ρ η :=
  { manager := .new
    threadData := fun _ => none }

variable [DecidableEq τ]

/-- `prepareThreadData`, at the start of `doGet`, `doPost`, `doPut` and `doDel`.  Thread data that
is there already is released, which destroys nothing. -/
def prepareThreadData (state : AbortHandlers τ ρ η) (thread : τ) (req : ρ) (allocated : Bool) :
    AbortHandlers τ ρ η :=
  { state with
    threadData := Function.update state.threadData thread
      (if allocated then some ⟨req, []⟩ else none) }

/-- `RequestHandler::registerAbortHandler`. -/
def registerAbortHandler (state : AbortHandlers τ ρ η) (thread : τ) (handler : η)
    (allocated : Bool) : AbortHandlers τ ρ η × ℕ :=
  match state.threadData thread with
  | none => (state, 0)
  | some data =>
      let registered := state.manager.registerAbortHandler data.req handler allocated
      if 0 < registered.2 then
        ({ manager := registered.1
           threadData := Function.update state.threadData thread
             (some { data with idList := data.idList ++ [registered.2] }) }, registered.2)
      else
        ({ state with
            manager :=
              { registered.1 with
                events := registered.1.events ++ [.destroyed handler] } }, registered.2)

/-- `RequestHandler::removeAbortHandler`. -/
def removeAbortHandler (state : AbortHandlers τ ρ η) (thread : τ) (handlerId : ℕ) :
    AbortHandlers τ ρ η :=
  match state.threadData thread with
  | none => state
  | some data =>
      if handlerId ∈ data.idList then
        { manager := state.manager.removeAbortHandler handlerId
          threadData := Function.update state.threadData thread
            (some { data with idList := data.idList.erase handlerId }) }
      else state

/-- `cleanupThreadData`, at the end of `doGet`, `doPost`, `doPut` and `doDel`, also when the
handler throws. -/
def cleanupThreadData (state : AbortHandlers τ ρ η) (thread : τ) : AbortHandlers τ ρ η :=
  match state.threadData thread with
  | none => state
  | some data =>
      { manager := state.manager.removeAllAbortHandler data.idList
        threadData := Function.update state.threadData thread none }

/-- One action. -/
def step (state : AbortHandlers τ ρ η) : Action τ ρ η → AbortHandlers τ ρ η
  | .prepareThreadData thread req allocated => state.prepareThreadData thread req allocated
  | .registerAbortHandler thread handler allocated =>
      (state.registerAbortHandler thread handler allocated).1
  | .removeAbortHandler thread handlerId => state.removeAbortHandler thread handlerId
  | .cleanupThreadData thread => state.cleanupThreadData thread
  | .checkAboretedConnections aborted =>
      { state with manager := state.manager.checkAboretedConnections aborted }

/-- The state after some actions of the threads. -/
def after (actions : List (Action τ ρ η)) : AbortHandlers τ ρ η := Runs.run step initial actions

end AbortHandlers

/-! ## Entries -/

namespace ApacheAbortHandlerManager

variable {ρ η : Type} {manager : ApacheAbortHandlerManager ρ η}

/-- The manager has an entry with the handler. -/
def Keeps (manager : ApacheAbortHandlerManager ρ η) (handler : η) : Prop :=
  ∃ id helper, manager.handlerMap.find? id = some helper ∧ helper.handler = handler

theorem find?_erase (manager : ApacheAbortHandlerManager ρ η) (ends : η → List (HandlerEvent η))
    (id other : ℕ) :
    (manager.erase ends id).handlerMap.find? other =
      if other = id then none else manager.handlerMap.find? other := by
  cases found : manager.handlerMap.find? id with
  | none =>
      have same : manager.erase ends id = manager := by simp only [erase, found]
      rw [same]
      split
      · rename_i isId
        rw [isId]
        exact found
      · rfl
  | some helper =>
      simp only [erase, found]
      exact SortedMap.find?_erase _ _ _

theorem erase_nextId (ends : η → List (HandlerEvent η)) (id : ℕ) :
    (manager.erase ends id).nextId = manager.nextId := by
  simp only [erase]
  split
  · rfl
  · rfl

theorem find?_of_find?_erase {ends : η → List (HandlerEvent η)} {id other : ℕ}
    {helper : AbortHandlerHelper ρ η}
    (found : (manager.erase ends id).handlerMap.find? other = some helper) :
    other ≠ id ∧ manager.handlerMap.find? other = some helper := by
  rw [find?_erase] at found
  split at found
  · cases found
  · rename_i different
    exact ⟨different, found⟩

theorem keeps_erase_iff {ends : η → List (HandlerEvent η)} {id : ℕ}
    {helper : AbortHandlerHelper ρ η} (found : manager.handlerMap.find? id = some helper)
    {handler : η} (different : helper.handler ≠ handler) :
    (manager.erase ends id).Keeps handler ↔ manager.Keeps handler := by
  constructor
  · rintro ⟨other, otherHelper, isFound, same⟩
    exact ⟨other, otherHelper, (find?_of_find?_erase isFound).2, same⟩
  · rintro ⟨other, otherHelper, isFound, same⟩
    refine ⟨other, otherHelper, ?_, same⟩
    rw [find?_erase, if_neg]
    · exact isFound
    · rintro rfl
      rw [found] at isFound
      cases isFound
      exact different same

theorem registerAbortHandler_nextId (req : ρ) (handler : η)
    (bounded : manager.nextId + 1 < 2 ^ 64) :
    (manager.registerAbortHandler req handler true).1.nextId = manager.nextId + 1 :=
  Nat.mod_eq_of_lt bounded

theorem find?_registerAbortHandler (req : ρ) (handler : η) (id : ℕ) :
    (manager.registerAbortHandler req handler true).1.handlerMap.find? id =
      if id = manager.nextId then some ⟨req, handler⟩ else manager.handlerMap.find? id :=
  SortedMap.find?_insert _ _ _ _

theorem of_find?_registerAbortHandler {req : ρ} {handler : η} {id : ℕ}
    {helper : AbortHandlerHelper ρ η}
    (found : (manager.registerAbortHandler req handler true).1.handlerMap.find? id =
      some helper) :
    (id = manager.nextId ∧ helper = ⟨req, handler⟩) ∨
      (id ≠ manager.nextId ∧ manager.handlerMap.find? id = some helper) := by
  rw [find?_registerAbortHandler] at found
  split at found
  · rename_i isNext
    cases found
    exact Or.inl ⟨isNext, rfl⟩
  · rename_i different
    exact Or.inr ⟨different, found⟩

theorem find?_removeAllAbortHandler (idList : List ℕ) (other : ℕ) :
    (manager.removeAllAbortHandler idList).handlerMap.find? other =
      if other ∈ idList then none else manager.handlerMap.find? other := by
  induction idList generalizing manager with
  | nil => simp [ApacheAbortHandlerManager.removeAllAbortHandler]
  | cons id rest ih =>
      have first := find?_erase manager removal id other
      rw [ApacheAbortHandlerManager.removeAllAbortHandler, List.foldl_cons,
        ← ApacheAbortHandlerManager.removeAllAbortHandler, ih,
        ApacheAbortHandlerManager.removeAbortHandler, first]
      by_cases isFirst : other = id
      · simp [isFirst]
      · simp [isFirst]

theorem removeAllAbortHandler_nextId (idList : List ℕ) :
    (manager.removeAllAbortHandler idList).nextId = manager.nextId := by
  induction idList generalizing manager with
  | nil => rfl
  | cons id rest ih =>
      rw [ApacheAbortHandlerManager.removeAllAbortHandler, List.foldl_cons,
        ← ApacheAbortHandlerManager.removeAllAbortHandler, ih]
      exact erase_nextId removal id

/-- What the look at the connections does: it erases entries. -/
theorem checkAboretedConnections_induction (manager : ApacheAbortHandlerManager ρ η)
    {motive : ApacheAbortHandlerManager ρ η → Prop} (aborted : ρ → Bool) (start : motive manager)
    (erases : ∀ manager id, motive manager → motive (manager.erase abortion id)) :
    motive (manager.checkAboretedConnections aborted) := by
  simp only [checkAboretedConnections]
  generalize manager.handlerMap.entries = entries
  induction entries generalizing manager with
  | nil => exact start
  | cons entry rest ih =>
      rw [List.foldl_cons]
      split
      · exact ih _ (erases manager entry.1 start)
      · exact ih _ start

theorem find?_foldl_check (aborted : ρ → Bool)
    (entries : List (ℕ × AbortHandlerHelper ρ η)) (id : ℕ) :
    (entries.foldl (fun manager entry =>
        if aborted entry.2.req then manager.erase abortion entry.1 else manager)
      manager).handlerMap.find? id =
        if entries.any fun entry => entry.1 = id && aborted entry.2.req then none
        else manager.handlerMap.find? id := by
  induction entries generalizing manager with
  | nil => rfl
  | cons entry rest ih =>
      rw [List.foldl_cons, ih, List.any_cons]
      cases isAborted : aborted entry.2.req with
      | true =>
          rw [if_pos rfl, find?_erase, Bool.and_true]
          by_cases same : id = entry.1
          · rw [if_pos same, decide_eq_true same.symm, Bool.true_or, if_pos rfl, ite_self]
          · rw [if_neg same, decide_eq_false (Ne.symm same), Bool.false_or]
      | false => rw [if_neg Bool.false_ne_true, Bool.and_false, Bool.false_or]

/-- The look at the connections erases the entries of aborted ones. -/
theorem find?_checkAboretedConnections (manager : ApacheAbortHandlerManager ρ η)
    (aborted : ρ → Bool) (id : ℕ) :
    (manager.checkAboretedConnections aborted).handlerMap.find? id =
      (manager.handlerMap.find? id).filter fun helper => !aborted helper.req := by
  rw [checkAboretedConnections, find?_foldl_check]
  have isAny (helper : AbortHandlerHelper ρ η)
      (found : manager.handlerMap.find? id = some helper) :
      (manager.handlerMap.entries.any fun entry => entry.1 = id && aborted entry.2.req) =
        aborted helper.req := by
    have isEntry := SortedMap.mem_entries_iff.mpr found
    rw [Bool.eq_iff_iff, List.any_eq_true]
    simp only [Bool.and_eq_true, decide_eq_true_eq]
    constructor
    · rintro ⟨⟨other, otherHelper⟩, isOther, rfl, isAborted⟩
      have same := SortedMap.mem_entries_iff.mp isOther
      rw [found] at same
      cases same
      exact isAborted
    · intro isAborted
      exact ⟨(id, helper), isEntry, rfl, isAborted⟩
  cases found : manager.handlerMap.find? id with
  | none => exact ite_self none
  | some helper =>
      rw [isAny helper found]
      cases isAborted : aborted helper.req with
      | true => simp [Option.filter, isAborted]
      | false => simp [Option.filter, isAborted]

end ApacheAbortHandlerManager

/-! ## The life of a handler -/

namespace ApacheAbortHandlerManager

variable {ρ η : Type} [DecidableEq η] {manager : ApacheAbortHandlerManager ρ η}

/-- What has happened to a handler. -/
def lifeOf (manager : ApacheAbortHandlerManager ρ η) (handler : η) : List (HandlerEvent η) :=
  manager.events.filter fun event => event.handler = handler

/-- A handler that is kept is registered, and nothing else has happened to it.  One that is not
kept is unknown or destroyed, once, and called before that at most once. -/
inductive Life (manager : ApacheAbortHandlerManager ρ η) (handler : η) : Prop where
  | kept (life : manager.lifeOf handler = [.registered handler]) (kept : manager.Keeps handler)
  | unknown (life : manager.lifeOf handler = []) (notKept : ¬manager.Keeps handler)
  | removed (life : manager.lifeOf handler = [.registered handler, .destroyed handler])
      (notKept : ¬manager.Keeps handler)
  | aborted (life : manager.lifeOf handler =
        [.registered handler, .onAbort handler, .destroyed handler])
      (notKept : ¬manager.Keeps handler)

/-- The entries have ids that were given out, each with a handler of its own. -/
structure Sound (manager : ApacheAbortHandlerManager ρ η) : Prop where
  positive : 0 < manager.nextId
  below : ∀ id helper, manager.handlerMap.find? id = some helper → id < manager.nextId
  distinct : ∀ id other helper otherHelper, manager.handlerMap.find? id = some helper →
    manager.handlerMap.find? other = some otherHelper → helper.handler = otherHelper.handler →
      id = other
  life : ∀ handler, manager.Life handler

theorem sound_new : (new : ApacheAbortHandlerManager ρ η).Sound where
  positive := Nat.one_pos
  below _ _ found := by cases found
  distinct _ _ _ _ found := by cases found
  life handler := by
    apply Life.unknown rfl
    rintro ⟨id, helper, found, _⟩
    cases found

/-! ## One entry less -/

theorem lifeOf_erase (ends : η → List (HandlerEvent η)) {id : ℕ}
    {helper : AbortHandlerHelper ρ η} (found : manager.handlerMap.find? id = some helper)
    (handler : η) :
    (manager.erase ends id).lifeOf handler = manager.lifeOf handler ++
      (ends helper.handler).filter fun event => event.handler = handler := by
  simp only [erase, found, lifeOf, List.filter_append]

/-- The events end the life of a handler. -/
def IsEnd (ends : η → List (HandlerEvent η)) : Prop := ends = removal ∨ ends = abortion

/-- Other handlers are not concerned. -/
theorem IsEnd.filter_of_ne {ends : η → List (HandlerEvent η)} (isEnd : IsEnd ends)
    {handler other : η} (different : handler ≠ other) :
    ((ends handler).filter fun event => event.handler = other) = [] := by
  rcases isEnd with rfl | rfl
  · simp [removal, HandlerEvent.handler, different]
  · simp [abortion, HandlerEvent.handler, different]

theorem Sound.notKeeps_erase (sound : manager.Sound) (ends : η → List (HandlerEvent η)) {id : ℕ}
    {helper : AbortHandlerHelper ρ η} (found : manager.handlerMap.find? id = some helper) :
    ¬(manager.erase ends id).Keeps helper.handler := by
  rintro ⟨other, otherHelper, isFound, same⟩
  obtain ⟨different, before⟩ := find?_of_find?_erase isFound
  exact different (sound.distinct other id otherHelper helper before found same)

theorem Life.congr {other : ApacheAbortHandlerManager ρ η} {handler : η}
    (life : manager.Life handler) (sameLife : other.lifeOf handler = manager.lifeOf handler)
    (sameKeeps : other.Keeps handler ↔ manager.Keeps handler) : other.Life handler := by
  cases life with
  | kept life kept => exact .kept (sameLife.trans life) (sameKeeps.mpr kept)
  | unknown life notKept => exact .unknown (sameLife.trans life) (sameKeeps.not.mpr notKept)
  | removed life notKept => exact .removed (sameLife.trans life) (sameKeeps.not.mpr notKept)
  | aborted life notKept => exact .aborted (sameLife.trans life) (sameKeeps.not.mpr notKept)

/-- What has happened to a handler that is kept. -/
theorem Life.of_keeps {handler : η} (life : manager.Life handler)
    (keeps : manager.Keeps handler) : manager.lifeOf handler = [.registered handler] := by
  cases life with
  | kept life _ => exact life
  | unknown _ notKept => exact absurd keeps notKept
  | removed _ notKept => exact absurd keeps notKept
  | aborted _ notKept => exact absurd keeps notKept

/-- Erasing an entry ends the life of its handler. -/
theorem Sound.life_erase (sound : manager.Sound) {ends : η → List (HandlerEvent η)}
    (isEnd : IsEnd ends) {id : ℕ} {helper : AbortHandlerHelper ρ η}
    (found : manager.handlerMap.find? id = some helper) (handler : η) :
    (manager.erase ends id).Life handler := by
  by_cases same : helper.handler = handler
  · subst same
    have before := (sound.life helper.handler).of_keeps ⟨id, helper, found, rfl⟩
    have notKept := sound.notKeeps_erase ends found
    have isLife := lifeOf_erase ends found helper.handler
    rw [before] at isLife
    rcases isEnd with rfl | rfl
    · apply Life.removed _ notKept
      simpa [removal, HandlerEvent.handler] using isLife
    · apply Life.aborted _ notKept
      simpa [abortion, HandlerEvent.handler] using isLife
  · apply (sound.life handler).congr
    · rw [lifeOf_erase ends found, isEnd.filter_of_ne same, List.append_nil]
    · exact keeps_erase_iff found same

theorem Sound.erase (sound : manager.Sound) {ends : η → List (HandlerEvent η)}
    (isEnd : IsEnd ends) (id : ℕ) : (manager.erase ends id).Sound where
  positive := by
    rw [erase_nextId]
    exact sound.positive
  below other helper found := by
    rw [erase_nextId]
    exact sound.below other helper (find?_of_find?_erase found).2
  distinct one other helper otherHelper found otherFound :=
    sound.distinct one other helper otherHelper (find?_of_find?_erase found).2
      (find?_of_find?_erase otherFound).2
  life handler := by
    cases found : manager.handlerMap.find? id with
    | none =>
        have same : manager.erase ends id = manager := by
          simp only [ApacheAbortHandlerManager.erase, found]
        rw [same]
        exact sound.life handler
    | some helper => exact sound.life_erase isEnd found handler

/-! ## The operations -/

theorem Sound.removeAbortHandler (sound : manager.Sound) (handlerId : ℕ) :
    (manager.removeAbortHandler handlerId).Sound :=
  sound.erase (Or.inl rfl) handlerId

/-- Many entries less. -/
theorem Sound.removeAllAbortHandler (sound : manager.Sound) (idList : List ℕ) :
    (manager.removeAllAbortHandler idList).Sound := by
  induction idList generalizing manager with
  | nil => exact sound
  | cons id rest ih => exact ih (sound.removeAbortHandler id)

theorem Sound.checkAboretedConnections (sound : manager.Sound) (aborted : ρ → Bool) :
    (manager.checkAboretedConnections aborted).Sound :=
  checkAboretedConnections_induction manager aborted sound
    fun _ id sound => sound.erase (Or.inr rfl) id

/-- A handler is left alone by the look at the connections, or called and destroyed. -/
theorem Sound.lifeOf_checkAboretedConnections (sound : manager.Sound) (aborted : ρ → Bool)
    (handler : η) :
    ((manager.checkAboretedConnections aborted).lifeOf handler = manager.lifeOf handler ∧
        ((manager.checkAboretedConnections aborted).Keeps handler ↔ manager.Keeps handler)) ∨
      ((manager.checkAboretedConnections aborted).lifeOf handler =
          manager.lifeOf handler ++ abortion handler ∧
        ¬(manager.checkAboretedConnections aborted).Keeps handler) := by
  have both := checkAboretedConnections_induction manager
    (motive := fun reached => reached.Sound ∧
      ((reached.lifeOf handler = manager.lifeOf handler ∧
          (reached.Keeps handler ↔ manager.Keeps handler)) ∨
        (reached.lifeOf handler = manager.lifeOf handler ++ abortion handler ∧
          ¬reached.Keeps handler))) aborted ⟨sound, Or.inl ⟨rfl, Iff.rfl⟩⟩
  refine (both ?_).2
  rintro reached id ⟨isSound, soFar⟩
  refine ⟨isSound.erase (Or.inr rfl) id, ?_⟩
  cases found : reached.handlerMap.find? id with
  | none =>
      have same : reached.erase abortion id = reached := by
        simp only [ApacheAbortHandlerManager.erase, found]
      rw [same]
      exact soFar
  | some helper =>
      by_cases same : helper.handler = handler
      · subst same
        have keeps : reached.Keeps helper.handler := ⟨id, helper, found, rfl⟩
        rcases soFar with ⟨sameLife, _⟩ | ⟨_, notKept⟩
        · right
          refine ⟨?_, isSound.notKeeps_erase abortion found⟩
          rw [lifeOf_erase abortion found, sameLife]
          simp [abortion, HandlerEvent.handler]
        · exact absurd keeps notKept
      · have sameLife : (reached.erase abortion id).lifeOf handler = reached.lifeOf handler := by
          rw [lifeOf_erase abortion found, IsEnd.filter_of_ne (Or.inr rfl) same, List.append_nil]
        rw [sameLife, keeps_erase_iff found same]
        exact soFar

/-- An unknown handler is not kept. -/
theorem Life.notKeeps_of_unknown {handler : η} (life : manager.Life handler)
    (unknown : manager.lifeOf handler = []) : ¬manager.Keeps handler := by
  intro keeps
  have registered := life.of_keeps keeps
  rw [unknown] at registered
  cases registered

theorem lifeOf_registerAbortHandler (manager : ApacheAbortHandlerManager ρ η) (req : ρ)
    (handler other : η) :
    (manager.registerAbortHandler req handler true).1.lifeOf other =
      manager.lifeOf other ++ if handler = other then [.registered handler] else [] := by
  simp only [registerAbortHandler, lifeOf]
  by_cases same : handler = other
  · simp [HandlerEvent.handler, same]
  · simp [HandlerEvent.handler, same]

/-- A new handler is registered. -/
theorem Sound.life_registerAbortHandler (sound : manager.Sound) (req : ρ) {handler : η}
    (unknown : manager.lifeOf handler = []) (other : η) :
    (manager.registerAbortHandler req handler true).1.Life other := by
  have isLife := lifeOf_registerAbortHandler manager req handler other
  by_cases same : handler = other
  · subst same
    rw [unknown, if_pos rfl] at isLife
    apply Life.kept isLife
    exact ⟨manager.nextId, ⟨req, handler⟩,
      by rw [find?_registerAbortHandler, if_pos rfl], rfl⟩
  · rw [if_neg same, List.append_nil] at isLife
    apply (sound.life other).congr isLife
    constructor
    · rintro ⟨id, helper, found, isOther⟩
      rcases of_find?_registerAbortHandler found with ⟨_, isNew⟩ | ⟨_, isOld⟩
      · rw [isNew] at isOther
        exact absurd isOther same
      · exact ⟨id, helper, isOld, isOther⟩
    · rintro ⟨id, helper, found, isOther⟩
      refine ⟨id, helper, ?_, isOther⟩
      rw [find?_registerAbortHandler, if_neg (sound.below id helper found).ne]
      exact found

theorem Sound.registerAbortHandler (sound : manager.Sound) (req : ρ) {handler : η}
    (unknown : manager.lifeOf handler = []) (bounded : manager.nextId + 1 < 2 ^ 64) :
    (manager.registerAbortHandler req handler true).1.Sound where
  positive := by
    rw [registerAbortHandler_nextId req handler bounded]
    exact Nat.succ_pos _
  below id helper found := by
    rw [registerAbortHandler_nextId req handler bounded]
    rcases of_find?_registerAbortHandler found with ⟨isNext, _⟩ | ⟨_, isOld⟩
    · rw [isNext]
      exact Nat.lt_succ_self _
    · exact (sound.below id helper isOld).trans (Nat.lt_succ_self _)
  distinct id other helper otherHelper found otherFound same := by
    have notKept := (sound.life handler).notKeeps_of_unknown unknown
    rcases of_find?_registerAbortHandler found with ⟨isNext, isNew⟩ | ⟨_, isOld⟩
    · rcases of_find?_registerAbortHandler otherFound with ⟨isOtherNext, _⟩ | ⟨_, isOtherOld⟩
      · rw [isNext, isOtherNext]
      · refine absurd ⟨other, otherHelper, isOtherOld, ?_⟩ notKept
        rw [← same, isNew]
    · rcases of_find?_registerAbortHandler otherFound with ⟨_, isNew⟩ | ⟨_, isOtherOld⟩
      · refine absurd ⟨id, helper, isOld, ?_⟩ notKept
        rw [same, isNew]
      · exact sound.distinct id other helper otherHelper isOld isOtherOld same
  life := sound.life_registerAbortHandler req unknown

/-- The manager behind a registration without memory. -/
theorem Sound.destroyed (sound : manager.Sound) {handler : η}
    (unknown : manager.lifeOf handler = []) :
    Sound
      { manager with
        events := manager.events ++ [.registered handler] ++ [.destroyed handler] } where
  positive := sound.positive
  below := sound.below
  distinct := sound.distinct
  life other := by
    have notKept := (sound.life handler).notKeeps_of_unknown unknown
    have isLife : lifeOf
        { manager with
          events := manager.events ++ [.registered handler] ++ [.destroyed handler] } other =
        manager.lifeOf other ++
          if handler = other then [.registered handler, .destroyed handler]
          else [] := by
      simp only [lifeOf, List.filter_append, List.append_assoc]
      by_cases same : handler = other
      · simp [HandlerEvent.handler, same]
      · simp [HandlerEvent.handler, same]
    by_cases same : handler = other
    · subst same
      rw [unknown, if_pos rfl] at isLife
      exact Life.removed isLife notKept
    · rw [if_neg same, List.append_nil] at isLife
      exact (sound.life other).congr isLife Iff.rfl

end ApacheAbortHandlerManager

/-! ## The handlers of the requests -/

namespace AbortHandlers

open ApacheAbortHandlerManager

variable {τ ρ η : Type} [DecidableEq η] {state : AbortHandlers τ ρ η}

/-- Every entry is one of a request in progress, and no other request knows its id. -/
structure Owned (state : AbortHandlers τ ρ η) : Prop where
  sound : state.manager.Sound
  owner : ∀ id helper, state.manager.handlerMap.find? id = some helper →
    ∃ thread data, state.threadData thread = some data ∧ id ∈ data.idList ∧
      data.req = helper.req
  given : ∀ thread data, state.threadData thread = some data →
    ∀ id ∈ data.idList, id < state.manager.nextId
  apart : ∀ thread other data otherData, state.threadData thread = some data →
    state.threadData other = some otherData → ∀ id ∈ data.idList, id ∈ otherData.idList →
      thread = other

theorem owned_initial : (initial : AbortHandlers τ ρ η).Owned where
  sound := sound_new
  owner _ _ found := by cases found
  given _ _ found := by cases found
  apart _ _ _ _ found := by cases found

variable [DecidableEq τ]

/-- The thread data of a thread, or of the others. -/
theorem update_eq_some_iff {threads : τ → Option (ThreadData ρ)} {thread other : τ}
    {value : Option (ThreadData ρ)} {data : ThreadData ρ} :
    Function.update threads thread value other = some data ↔
      (other = thread ∧ value = some data) ∨ (other ≠ thread ∧ threads other = some data) := by
  by_cases same : other = thread
  · subst same
    simp
  · simp [same]

/-- Another manager, and other data of one thread: its ids are old ones, or the next one. -/
theorem Owned.update (owned : state.Owned) {thread : τ}
    {manager : ApacheAbortHandlerManager ρ η} {value : Option (ThreadData ρ)}
    (sound : manager.Sound) (grows : state.manager.nextId ≤ manager.nextId)
    (known : ∀ data, value = some data → ∀ id ∈ data.idList,
      (∃ old, state.threadData thread = some old ∧ id ∈ old.idList) ∨
        (id = state.manager.nextId ∧ id < manager.nextId))
    (owner : ∀ id helper, manager.handlerMap.find? id = some helper →
      ∃ other data, Function.update state.threadData thread value other = some data ∧
        id ∈ data.idList ∧ data.req = helper.req) :
    Owned
      { manager := manager
        threadData := Function.update state.threadData thread value } where
  sound := sound
  owner := owner
  given other data found id among := by
    rcases update_eq_some_iff.mp found with ⟨rfl, isNew⟩ | ⟨_, isOld⟩
    · rcases known data isNew id among with ⟨old, isOld, before⟩ | ⟨_, bounded⟩
      · exact (owned.given other old isOld id before).trans_le grows
      · exact bounded
    · exact (owned.given other data isOld id among).trans_le grows
  apart one other data otherData found otherFound id among otherAmong := by
    have ofNew {isOther : τ} {isOtherData newData : ThreadData ρ} (isNew : value = some newData)
        (isOld : state.threadData isOther = some isOtherData) (inNew : id ∈ newData.idList)
        (inOther : id ∈ isOtherData.idList) : thread = isOther := by
      rcases known newData isNew id inNew with ⟨old, before, inOld⟩ | ⟨isNext, _⟩
      · exact owned.apart thread isOther old isOtherData before isOld id inOld inOther
      · exact absurd isNext (owned.given isOther isOtherData isOld id inOther).ne
    rcases update_eq_some_iff.mp found with ⟨rfl, isNew⟩ | ⟨_, isOld⟩
    · rcases update_eq_some_iff.mp otherFound with ⟨rfl, _⟩ | ⟨_, isOtherOld⟩
      · rfl
      · exact ofNew isNew isOtherOld among otherAmong
    · rcases update_eq_some_iff.mp otherFound with ⟨rfl, isOtherNew⟩ | ⟨_, isOtherOld⟩
      · exact (ofNew isOtherNew isOld otherAmong among).symm
      · exact owned.apart one other data otherData isOld isOtherOld id among otherAmong

/-- An entry of another thread stays with its owner. -/
theorem Owned.owner_update (owned : state.Owned) {thread : τ} {value : Option (ThreadData ρ)}
    {id : ℕ} {helper : AbortHandlerHelper ρ η}
    (found : state.manager.handlerMap.find? id = some helper)
    (own : ∀ data, state.threadData thread = some data → id ∈ data.idList →
      ∃ changed, value = some changed ∧ id ∈ changed.idList ∧ changed.req = data.req) :
    ∃ other data, Function.update state.threadData thread value other = some data ∧
      id ∈ data.idList ∧ data.req = helper.req := by
  obtain ⟨other, data, isOld, among, same⟩ := owned.owner id helper found
  by_cases isOwn : other = thread
  · subst isOwn
    obtain ⟨changed, isNew, stays, sameReq⟩ := own data isOld among
    exact ⟨other, changed, update_eq_some_iff.mpr (Or.inl ⟨rfl, isNew⟩), stays,
      sameReq.trans same⟩
  · exact ⟨other, data, update_eq_some_iff.mpr (Or.inr ⟨isOwn, isOld⟩), among, same⟩

/-! ## One action -/

/-- A request starts in a thread that handles none. -/
theorem Owned.prepareThreadData (owned : state.Owned) {thread : τ}
    (idle : state.threadData thread = none) (req : ρ) (allocated : Bool) :
    (state.prepareThreadData thread req allocated).Owned := by
  apply owned.update owned.sound (le_refl _)
  · intro data isNew id among
    cases allocated with
    | true =>
        cases isNew
        cases among
    | false => cases isNew
  · intro id helper found
    apply owned.owner_update found
    intro data busy
    rw [idle] at busy
    cases busy

/-- A handler that nothing has happened to is registered. -/
theorem Owned.registerAbortHandler (owned : state.Owned) (thread : τ) {handler : η}
    (unknown : state.manager.lifeOf handler = []) (allocated : Bool)
    (bounded : state.manager.nextId + 1 < 2 ^ 64) :
    (state.registerAbortHandler thread handler allocated).1.Owned := by
  simp only [AbortHandlers.registerAbortHandler]
  cases isData : state.threadData thread with
  | none => exact owned
  | some data =>
      cases allocated with
      | false =>
          exact
            { sound := owned.sound.destroyed unknown
              owner := owned.owner
              given := owned.given
              apart := owned.apart }
      | true =>
          have sound := owned.sound.registerAbortHandler data.req unknown bounded
          have isNext := registerAbortHandler_nextId data.req handler bounded
          have positive :
              0 < (state.manager.registerAbortHandler data.req handler true).2 :=
            owned.sound.positive
          simp only [if_pos positive]
          apply owned.update sound
          · rw [isNext]
            exact Nat.le_succ _
          · intro changed isNew id among
            cases isNew
            rcases List.mem_append.mp among with before | isLast
            · exact Or.inl ⟨data, isData, before⟩
            · right
              have isId : id = state.manager.nextId := List.mem_singleton.mp isLast
              rw [isNext, isId]
              exact ⟨rfl, Nat.lt_succ_self _⟩
          · intro id helper found
            rcases of_find?_registerAbortHandler found with ⟨isId, isNew⟩ | ⟨_, isOld⟩
            · refine ⟨thread, _, update_eq_some_iff.mpr (Or.inl ⟨rfl, rfl⟩), ?_, ?_⟩
              · rw [isId]
                exact List.mem_append_right _ (List.mem_singleton_self _)
              · rw [isNew]
            · apply owned.owner_update isOld
              intro old isOldData among
              rw [isData] at isOldData
              cases isOldData
              exact ⟨_, rfl, List.mem_append_left _ among, rfl⟩

theorem Owned.removeAbortHandler (owned : state.Owned) (thread : τ) (handlerId : ℕ) :
    (state.removeAbortHandler thread handlerId).Owned := by
  simp only [AbortHandlers.removeAbortHandler]
  cases isData : state.threadData thread with
  | none => exact owned
  | some data =>
      simp only []
      split
      · apply owned.update (owned.sound.removeAbortHandler handlerId)
        · exact (erase_nextId removal handlerId).ge
        · intro changed isNew id among
          cases isNew
          exact Or.inl ⟨data, isData, List.mem_of_mem_erase among⟩
        · intro id helper found
          obtain ⟨different, before⟩ := find?_of_find?_erase found
          apply owned.owner_update before
          intro old isOld among
          rw [isData] at isOld
          cases isOld
          exact ⟨_, rfl, (List.mem_erase_of_ne different).mpr among, rfl⟩
      · exact owned

theorem Owned.cleanupThreadData (owned : state.Owned) (thread : τ) :
    (state.cleanupThreadData thread).Owned := by
  simp only [AbortHandlers.cleanupThreadData]
  cases isData : state.threadData thread with
  | none => exact owned
  | some data =>
      apply owned.update (owned.sound.removeAllAbortHandler data.idList)
      · exact (removeAllAbortHandler_nextId data.idList).ge
      · intro changed isNew
        cases isNew
      · intro id helper found
        rw [find?_removeAllAbortHandler] at found
        split at found
        · cases found
        · rename_i notOwn
          apply owned.owner_update found
          intro old isOld among
          rw [isData] at isOld
          cases isOld
          exact absurd among notOwn

omit [DecidableEq τ] in
theorem Owned.checkAboretedConnections (owned : state.Owned) (aborted : ρ → Bool) :
    Owned { state with manager := state.manager.checkAboretedConnections aborted } := by
  apply checkAboretedConnections_induction state.manager
    (motive := fun manager => Owned { state with manager := manager }) aborted owned
  intro manager id owned
  constructor
  · exact owned.sound.erase (Or.inr rfl) id
  · intro other helper found
    exact owned.owner other helper (find?_of_find?_erase found).2
  · intro thread data isData other among
    rw [erase_nextId]
    exact owned.given thread data isData other among
  · exact owned.apart

/-! ## Every run -/

/-- What the threads do by their programs: a thread handles one request at a time, and a handler
is registered once.  The ids do not wrap. -/
def Permits (state : AbortHandlers τ ρ η) : Action τ ρ η → Prop
  | .prepareThreadData thread _ _ => state.threadData thread = none
  | .registerAbortHandler _ handler _ =>
      state.manager.lifeOf handler = [] ∧ state.manager.nextId + 1 < 2 ^ 64
  | .removeAbortHandler _ _ | .cleanupThreadData _ | .checkAboretedConnections _ => True

theorem Owned.step (owned : state.Owned) {action : Action τ ρ η}
    (permits : Permits state action) : (state.step action).Owned := by
  cases action with
  | prepareThreadData thread req allocated => exact owned.prepareThreadData permits req allocated
  | registerAbortHandler thread handler allocated =>
      exact owned.registerAbortHandler thread permits.1 allocated permits.2
  | removeAbortHandler thread handlerId => exact owned.removeAbortHandler thread handlerId
  | cleanupThreadData thread => exact owned.cleanupThreadData thread
  | checkAboretedConnections aborted => exact owned.checkAboretedConnections aborted

theorem owned_after {actions : List (Action τ ρ η)}
    (permits : Runs.EachStep step Permits initial actions) : (after actions).Owned :=
  permits.invariant Owned (fun _ _ owned permits => owned.step permits) owned_initial

/-- In every run a handler is registered, called at most once and destroyed once, in this order.
One that is not destroyed yet is kept for a request in progress, which knows its id.  So the
manager looks at the connections of requests in progress only, and a request leaves no handler
behind. -/
theorem handlers_after {actions : List (Action τ ρ η)}
    (permits : Runs.EachStep step Permits initial actions) :
    (∀ handler,
      (after actions).manager.lifeOf handler = [] ∨
      (after actions).manager.lifeOf handler = [.registered handler, .destroyed handler] ∨
      (after actions).manager.lifeOf handler =
        [.registered handler, .onAbort handler, .destroyed handler] ∨
      ((after actions).manager.lifeOf handler = [.registered handler] ∧
        ∃ thread data id, (after actions).threadData thread = some data ∧ id ∈ data.idList ∧
          (after actions).manager.handlerMap.find? id = some ⟨data.req, handler⟩)) ∧
    ∀ id helper, (after actions).manager.handlerMap.find? id = some helper →
      ∃ thread data, (after actions).threadData thread = some data ∧ data.req = helper.req := by
  have owned := owned_after permits
  constructor
  · intro handler
    cases owned.sound.life handler with
    | unknown life _ => exact Or.inl life
    | removed life _ => exact Or.inr (Or.inl life)
    | aborted life _ => exact Or.inr (Or.inr (Or.inl life))
    | kept life kept =>
        obtain ⟨id, helper, found, same⟩ := kept
        obtain ⟨thread, data, isData, among, sameReq⟩ := owned.owner id helper found
        refine Or.inr (Or.inr (Or.inr ⟨life, thread, data, id, isData, among, ?_⟩))
        rw [found, sameReq, ← same]
  · intro id helper found
    obtain ⟨thread, data, isData, _, sameReq⟩ := owned.owner id helper found
    exact ⟨thread, data, isData, sameReq⟩

/-- When the manager looks at the connections, it calls the handlers of the aborted ones, each for
the first time, and leaves the others alone. -/
theorem check_after {actions : List (Action τ ρ η)}
    (permits : Runs.EachStep step Permits initial actions) (aborted : ρ → Bool) {id : ℕ}
    {helper : AbortHandlerHelper ρ η}
    (found : (after actions).manager.handlerMap.find? id = some helper) :
    if aborted helper.req then
      ((after actions).step (.checkAboretedConnections aborted)).manager.handlerMap.find? id =
          none ∧
        ((after actions).step (.checkAboretedConnections aborted)).manager.lifeOf
            helper.handler =
          [.registered helper.handler, .onAbort helper.handler, .destroyed helper.handler]
    else
      ((after actions).step (.checkAboretedConnections aborted)).manager.handlerMap.find? id =
          some helper ∧
        ((after actions).step (.checkAboretedConnections aborted)).manager.lifeOf
            helper.handler =
          [.registered helper.handler] := by
  have sound := (owned_after permits).sound
  have soundAfter := sound.checkAboretedConnections aborted
  have lookup := find?_checkAboretedConnections (after actions).manager aborted
  have keeps : (after actions).manager.Keeps helper.handler := ⟨id, helper, found, rfl⟩
  have registered := (sound.life helper.handler).of_keeps keeps
  have isAfter := lookup id
  rw [found] at isAfter
  cases isAborted : aborted helper.req with
  | true =>
      rw [if_pos rfl]
      constructor
      · exact isAfter.trans (by simp [Option.filter, isAborted])
      · have notKept : ¬((after actions).manager.checkAboretedConnections aborted).Keeps
            helper.handler := by
          rintro ⟨other, otherHelper, isFound, same⟩
          rw [lookup, Option.filter_eq_some_iff] at isFound
          have isId := sound.distinct other id otherHelper helper isFound.1 found same
          subst isId
          rw [found] at isFound
          cases isFound.1
          simp [isAborted] at isFound
        rcases sound.lifeOf_checkAboretedConnections aborted helper.handler with
          ⟨_, sameKeeps⟩ | ⟨called, _⟩
        · exact absurd (sameKeeps.mpr keeps) notKept
        · rw [registered] at called
          exact called
  | false =>
      rw [if_neg Bool.false_ne_true]
      have stays := isAfter.trans (by simp [Option.filter, isAborted] :
        Option.filter (fun helper => !aborted helper.req) (some helper) = some helper)
      exact ⟨stays, (soundAfter.life helper.handler).of_keeps ⟨id, helper, stays, rfl⟩⟩

/-- A request does nothing to the handlers of the others, whichever id it wants to remove, and
none of its own is left when it ends. -/
theorem others_after {actions : List (Action τ ρ η)}
    (permits : Runs.EachStep step Permits initial actions) (thread : τ) (handlerId : ℕ) :
    (∀ other data id, other ≠ thread → (after actions).threadData other = some data →
      id ∈ data.idList →
        ((after actions).step (.removeAbortHandler thread handlerId)).manager.handlerMap.find? id =
            (after actions).manager.handlerMap.find? id ∧
          ((after actions).step (.cleanupThreadData thread)).manager.handlerMap.find? id =
            (after actions).manager.handlerMap.find? id) ∧
    ∀ data id, (after actions).threadData thread = some data → id ∈ data.idList →
      ((after actions).step (.cleanupThreadData thread)).manager.handlerMap.find? id = none := by
  have owned := owned_after permits
  constructor
  · intro other data id different isData among
    have notOwn {own : ThreadData ρ} (isOwn : (after actions).threadData thread = some own) :
        id ∉ own.idList := by
      intro amongOwn
      exact different (owned.apart other thread data own isData isOwn id among amongOwn)
    constructor
    · simp only [step, AbortHandlers.removeAbortHandler]
      cases isOwn : (after actions).threadData thread with
      | none => rfl
      | some own =>
          simp only []
          split
          · rename_i isKnown
            simp only [ApacheAbortHandlerManager.removeAbortHandler, find?_erase]
            rw [if_neg]
            rintro rfl
            exact notOwn isOwn isKnown
          · rfl
    · simp only [step, AbortHandlers.cleanupThreadData]
      cases isOwn : (after actions).threadData thread with
      | none => rfl
      | some own =>
          simp only [find?_removeAllAbortHandler]
          exact if_neg (notOwn isOwn)
  · intro data id isData among
    simp only [step, AbortHandlers.cleanupThreadData, isData, find?_removeAllAbortHandler]
    exact if_pos among

/-- Two requests, of which the client of the second goes away, and the first has no memory for
its second handler. -/
def twoRequests : List (Action ℕ ℕ ℕ) :=
  [.prepareThreadData 1 10 true, .prepareThreadData 2 20 true,
   .registerAbortHandler 1 100 true, .registerAbortHandler 2 200 true,
   .checkAboretedConnections (· = 20), .registerAbortHandler 1 101 false]

theorem permits_twoRequests : Runs.EachStep step Permits initial twoRequests :=
  ⟨rfl, rfl, ⟨rfl, by decide⟩, ⟨rfl, by decide⟩, trivial, ⟨rfl, by decide⟩, trivial⟩

theorem handlers_twoRequests :
    (∀ handler,
      (after twoRequests).manager.lifeOf handler = [] ∨
      (after twoRequests).manager.lifeOf handler = [.registered handler, .destroyed handler] ∨
      (after twoRequests).manager.lifeOf handler =
        [.registered handler, .onAbort handler, .destroyed handler] ∨
      ((after twoRequests).manager.lifeOf handler = [.registered handler] ∧
        ∃ thread data id, (after twoRequests).threadData thread = some data ∧
          id ∈ data.idList ∧
          (after twoRequests).manager.handlerMap.find? id = some ⟨data.req, handler⟩)) ∧
    ∀ id helper, (after twoRequests).manager.handlerMap.find? id = some helper →
      ∃ thread data, (after twoRequests).threadData thread = some data ∧
        data.req = helper.req :=
  handlers_after permits_twoRequests

theorem check_twoRequests :
    ((after twoRequests).step (.checkAboretedConnections (· = 10))).manager.lifeOf 100 =
      [.registered 100, .onAbort 100, .destroyed 100] :=
  (check_after permits_twoRequests (· = 10) (rfl : (after twoRequests).manager.handlerMap.find? 1 =
    some ⟨10, 100⟩)).2

theorem others_twoRequests :
    ((after twoRequests).step (.removeAbortHandler 2 1)).manager.handlerMap.find? 1 =
      (after twoRequests).manager.handlerMap.find? 1 :=
  ((others_after permits_twoRequests 2 1).1 1 ⟨10, [1]⟩ 1 (by decide) rfl
    (List.mem_singleton_self 1)).1

end AbortHandlers

end Wdb2ts
