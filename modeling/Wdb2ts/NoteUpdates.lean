import Wdb2ts.Lib.Runs
import Wdb2ts.NoteManager

/-!
# Updates of notes

After a check a helper holds the note that was stored last, when persistent notes are
registered before they are stored, and when no helper is left with the placeholder of a
registration once the note has been loaded from disk.  Loading restarts the version at
the one of the placeholder.
-/

namespace Wdb2ts

variable {C : Type}

/-! ## What one check does to one name -/

namespace NoteListenerElement

/-- The note an element has after it is offered one. -/
def keepOrTake (held : Option (NoteTag C)) (note : NoteTag C) : NoteTag C :=
  match held with
  | none => note
  | some held => if held.version ≠ note.version then note else held

theorem note_updateNote (element : NoteListenerElement C) (note : NoteTag C) :
    (element.updateNote note).2.note = some (keepOrTake element.note note) := by
  rcases element with ⟨listeners, held⟩
  cases held with
  | none => rfl
  | some held =>
      simp only [updateNote, keepOrTake]
      split
      · rfl
      · rfl

theorem keepOrTake_eq_or (held : Option (NoteTag C)) (note : NoteTag C) :
    held = some (keepOrTake held note) ∨ keepOrTake held note = note := by
  cases held with
  | none => exact Or.inr rfl
  | some held =>
      simp only [keepOrTake]
      split
      · exact Or.inr rfl
      · exact Or.inl rfl

/-- The content is the one of the offered note, unless a different note of its version is
held. -/
theorem content_keepOrTake {held : Option (NoteTag C)} {note : NoteTag C}
    (same : ∀ other, held = some other → other.version = note.version →
      other.content = note.content) : (keepOrTake held note).content = note.content := by
  cases held with
  | none => rfl
  | some other =>
      simp only [keepOrTake]
      split
      next => rfl
      next equal => exact same other rfl (not_ne_iff.mp equal)

end NoteListenerElement

namespace NoteHelper

/-- The note a helper holds for a name. -/
def heldNote (helper : NoteHelper C) (noteName : Bytes) : Option (NoteTag C) :=
  (helper.notes.find? noteName).bind NoteListenerElement.note

/-- An element that was offered a note holds the note from before or the offered one. -/
theorem heldNote_of_offered {before after : NoteHelper C} {noteName : Bytes}
    {note held : NoteTag C}
    (offered : after.notes.find? noteName =
      (before.notes.find? noteName).map fun element => (element.updateNote note).2)
    (isHeld : after.heldNote noteName = some held) :
    before.heldNote noteName = some held ∨ held = note := by
  simp only [heldNote] at isHeld ⊢
  rw [offered] at isHeld
  cases found : before.notes.find? noteName with
  | none =>
      rw [found] at isHeld
      cases isHeld
  | some element =>
      rw [found] at isHeld
      simp only [Option.map_some, Option.bind_some, NoteListenerElement.note_updateNote,
        Option.some.injEq] at isHeld
      rw [← isHeld]
      exact NoteListenerElement.keepOrTake_eq_or element.note note

theorem find?_updateNote (helper : NoteHelper C) (noteName other : Bytes) (note : NoteTag C) :
    (helper.updateNote noteName note).2.notes.find? other =
      if other = noteName then
        (helper.notes.find? noteName).map fun element => (element.updateNote note).2
      else helper.notes.find? other := by
  cases found : helper.notes.find? noteName with
  | none =>
      have same : (helper.updateNote noteName note).2 = helper := by
        simp [updateNote, found]
      rw [same]
      split
      next equal => rw [equal, found]; rfl
      next => rfl
  | some element =>
      simp [updateNote, found, SortedMap.find?_insert]

theorem heldNote_addNoteListener (helper : NoteHelper C) (noteName other : Bytes)
    (listener : Listener) :
    (helper.addNoteListener noteName listener).heldNote other = helper.heldNote other := by
  simp only [addNoteListener, heldNote]
  cases Decidable.em (other = noteName) with
  | inr different =>
      split
      · rw [SortedMap.find?_insert_of_ne _ different]
      · rw [SortedMap.find?_insert_of_ne _ different]
  | inl same =>
      subst same
      cases helper.notes.find? other with
      | none => simp
      | some element =>
          simp only [SortedMap.find?_insert_self, Option.bind_some,
            NoteListenerElement.addListener]
          split
          · rfl
          · rfl

end NoteHelper

namespace NoteManager

theorem find?_foldl_offer (notes : SortedMap Bytes (NoteTag C))
    (state : NoteHelper C × List Bytes) (noteName : Bytes) :
    (notes.entries.foldl offer state).1.notes.find? noteName =
      (notes.find? noteName).elim (state.1.notes.find? noteName) fun note =>
        (state.1.notes.find? noteName).map fun element => (element.updateNote note).2 := by
  apply SortedMap.foldl_entries
    (fun state : NoteHelper C × List Bytes => state.1.notes.find? noteName)
    (fun element note => element.map fun element => (element.updateNote note).2)
  · intro state entry different
    simp [offer, NoteHelper.find?_updateNote, different]
  · intro state note
    simp [offer, NoteHelper.find?_updateNote]

/-- Every name of the helper is offered its persistent note and then its other one. -/
theorem find?_updateHelper (manager : NoteManager C) (noteHelper : NoteHelper C)
    (noteName : Bytes) :
    (manager.updateHelper noteHelper).1.notes.find? noteName =
      (manager.notes.find? noteName).elim
        ((manager.persistentNotes.find? noteName).elim (noteHelper.notes.find? noteName)
          fun entry => (noteHelper.notes.find? noteName).map
            fun element => (element.updateNote entry.note).2)
        fun note => ((manager.persistentNotes.find? noteName).elim
          (noteHelper.notes.find? noteName)
          fun entry => (noteHelper.notes.find? noteName).map
            fun element => (element.updateNote entry.note).2).map
          fun element => (element.updateNote note).2 := by
  simp only [updateHelper]
  rw [find?_foldl_offer, find?_foldl_offer, SortedMap.find?_mapValues]
  cases manager.persistentNotes.find? noteName with
  | none => rfl
  | some entry => rfl

/-- A name with a persistent note only is offered this note. -/
theorem find?_updateHelper_persistent {manager : NoteManager C} {noteName : Bytes}
    {entry : PersistentNote C} (registered : manager.persistentNotes.find? noteName = some entry)
    (notPlain : manager.notes.find? noteName = none) (noteHelper : NoteHelper C) :
    (manager.updateHelper noteHelper).1.notes.find? noteName =
      (noteHelper.notes.find? noteName).map
        fun element => (element.updateNote entry.note).2 := by
  rw [find?_updateHelper, registered, notPlain]
  rfl

/-- Another name is offered the other note, if there is one. -/
theorem find?_updateHelper_plain {manager : NoteManager C} {noteName : Bytes}
    (notRegistered : manager.persistentNotes.find? noteName = none)
    (noteHelper : NoteHelper C) :
    (manager.updateHelper noteHelper).1.notes.find? noteName =
      (manager.notes.find? noteName).elim (noteHelper.notes.find? noteName) fun note =>
        (noteHelper.notes.find? noteName).map fun element => (element.updateNote note).2 := by
  rw [find?_updateHelper, notRegistered]
  rfl

theorem find?_loadPersistentNotes (streams : NoteStreams C) (files : NoteFiles)
    (manager : NoteManager C) (noteName : Bytes) :
    (manager.loadPersistentNotes streams files).persistentNotes.find? noteName =
      (manager.persistentNotes.find? noteName).map (PersistentNote.load streams files) :=
  SortedMap.find?_mapValues _ _ _

end NoteManager

theorem PersistentNote.file_load (streams : NoteStreams C) (files : NoteFiles)
    (entry : PersistentNote C) : (entry.load streams files).file = entry.file := by
  simp only [PersistentNote.load]
  split
  · rfl
  · split
    · rfl
    · split
      · rfl
      · split
        · rfl
        · split
          · rfl
          · rfl

/-! ## The note stored last -/

/-- The note stored last, after one more call. -/
def NoteAction.stored (noteName : Bytes) (last : Option C) : NoteAction C → Option C
  | .setNote name note _ => if name = noteName then some note else last
  | _ => last

/-- The note that the calls have stored last under a name. -/
def lastStored (calls : List (NoteAction C)) (noteName : Bytes) : Option C :=
  calls.foldl (NoteAction.stored noteName) none

theorem lastStored_append (calls : List (NoteAction C)) (call : NoteAction C)
    (noteName : Bytes) :
    lastStored (calls ++ [call]) noteName = call.stored noteName (lastStored calls noteName) :=
  List.foldl_append

/-! ## The invariant of one name -/

/-- A helper may hold an older version of a note, or the note itself. -/
structure UpToDate (held current : NoteTag C) : Prop where
  older : held.version ≤ current.version
  same : held.version = current.version → held.content = current.content

/-- What holds of a persistent note: a note that is stored can be loaded, and a helper holds
a note of version 0, or one it has taken since the note was loaded. -/
structure PersistentInvariant (streams : NoteStreams C) (files : NoteFiles) (last : Option C)
    (held : ℕ → Option (NoteTag C)) (entry : PersistentNote C) : Prop where
  nonneg : 0 ≤ entry.note.version
  unset : last = none → entry.note.version = 0
  current : ∀ content, last = some content → entry.note.content = content
  notLoaded : entry.isLoaded = false → entry.modifiedTime.isSpecial = true
  onDisk : entry.isLoaded = false → ∀ content, last = some content →
    ∃ file, files.find? entry.file = some file ∧ streams.loadNote content file.text = some content
  held : ∀ noteHelper note, held noteHelper = some note →
    note.version = 0 ∨ entry.isLoaded = true ∧ UpToDate note entry.note

/-- What holds of another note. -/
structure PlainInvariant (last : Option C) (held : ℕ → Option (NoteTag C))
    (stored : Option (NoteTag C)) : Prop where
  current : stored.map NoteTag.content = last
  held : ∀ noteHelper note, held noteHelper = some note →
    ∃ current, stored = some current ∧ UpToDate note current

/-- A name is in one of the two maps at most. -/
inductive NameInvariant (streams : NoteStreams C) (state : NoteSystem C) (last : Option C)
    (noteName : Bytes) : Prop where
  | persistent (entry : PersistentNote C)
      (registered : state.manager.persistentNotes.find? noteName = some entry)
      (notPlain : state.manager.notes.find? noteName = none)
      (file : entry.file =
        NoteManager.noteFilename state.manager.persistentNotePath noteName)
      (invariant : PersistentInvariant streams state.files last
        (fun noteHelper => (state.helpers noteHelper).heldNote noteName) entry)
  | plain (notRegistered : state.manager.persistentNotes.find? noteName = none)
      (invariant : PlainInvariant last
        (fun noteHelper => (state.helpers noteHelper).heldNote noteName)
        (state.manager.notes.find? noteName))

/-- A step leaves everything about a name as it was. -/
structure SameName (noteName : Bytes) (before after : NoteSystem C) : Prop where
  persistent : after.manager.persistentNotes.find? noteName =
    before.manager.persistentNotes.find? noteName
  plain : after.manager.notes.find? noteName = before.manager.notes.find? noteName
  path : after.manager.persistentNotePath = before.manager.persistentNotePath
  file : after.files.find? (NoteManager.noteFilename before.manager.persistentNotePath noteName) =
    before.files.find? (NoteManager.noteFilename before.manager.persistentNotePath noteName)
  held : ∀ noteHelper, (after.helpers noteHelper).heldNote noteName =
    (before.helpers noteHelper).heldNote noteName

theorem NameInvariant.of_sameName {streams : NoteStreams C} {before after : NoteSystem C}
    {last : Option C} {noteName : Bytes} (same : SameName noteName before after)
    (invariant : NameInvariant streams before last noteName) :
    NameInvariant streams after last noteName := by
  have held : (fun noteHelper => (after.helpers noteHelper).heldNote noteName) =
      fun noteHelper => (before.helpers noteHelper).heldNote noteName := funext same.held
  cases invariant with
  | persistent entry registered notPlain file invariant =>
      apply NameInvariant.persistent entry
      · rw [same.persistent, registered]
      · rw [same.plain, notPlain]
      · rw [same.path, file]
      · rw [held]
        refine { invariant with onDisk := ?_ }
        rw [file, same.file, ← file]
        exact invariant.onDisk
  | plain notRegistered invariant =>
      apply NameInvariant.plain
      · rw [same.persistent, notRegistered]
      · rw [held, same.plain]
        exact invariant

/-! ## The invariant of each call -/

section Steps

variable {streams : NoteStreams C} {state : NoteSystem C} {last : Option C} {noteName : Bytes}

theorem noteFilename_injective {path left right : Bytes}
    (equal : NoteManager.noteFilename path left = NoteManager.noteFilename path right) :
    left = right := by
  simp only [NoteManager.noteFilename, List.append_assoc] at equal
  exact List.append_cancel_right (List.append_cancel_left (List.append_cancel_left equal))

theorem registerPersistentNote_invariant {name : Bytes} {note : Option C}
    (unstored : state.manager.notes.find? name = none)
    (invariant : NameInvariant streams state last noteName) :
    NameInvariant streams (state.step streams (.registerPersistentNote name note)) last
      noteName := by
  cases note with
  | none => exact invariant
  | some note =>
      cases found : state.manager.persistentNotes.find? name with
      | some entry =>
          have unchanged : state.manager.registerPersistentNote name (some note) =
              state.manager := by
            simp [NoteManager.registerPersistentNote, found]
          simp only [NoteSystem.step, unchanged]
          exact invariant
      | none =>
          simp only [NoteSystem.step, NoteManager.registerPersistentNote, found]
          cases Decidable.em (noteName = name) with
          | inr different =>
              apply invariant.of_sameName
              constructor
              · exact SortedMap.find?_insert_of_ne _ different _
              · rfl
              · rfl
              · rfl
              · intro _
                rfl
          | inl same =>
              subst same
              cases invariant with
              | persistent entry registered =>
                  rw [registered] at found
                  cases found
              | plain notRegistered invariant =>
                  have lastNone : last = none := by
                    rw [← invariant.current, unstored]
                    rfl
                  apply NameInvariant.persistent
                  · exact SortedMap.find?_insert_self _ _ _
                  · exact unstored
                  · rfl
                  · constructor
                    · exact le_refl _
                    · intro _
                      rfl
                    · intro content isLast
                      rw [lastNone] at isLast
                      cases isLast
                    · intro _
                      rfl
                    · intro _ content isLast
                      rw [lastNone] at isLast
                      cases isLast
                    · intro noteHelper held isHeld
                      rcases invariant.held noteHelper held isHeld with ⟨current, stored, _⟩
                      rw [unstored] at stored
                      cases stored

theorem addNoteListener_invariant {noteHelper : ℕ} {name : Bytes} {listener : Listener}
    (invariant : NameInvariant streams state last noteName) :
    NameInvariant streams (state.step streams (.addNoteListener noteHelper name listener)) last
      noteName := by
  apply invariant.of_sameName
  constructor
  · rfl
  · rfl
  · rfl
  · rfl
  · intro other
    simp only [NoteSystem.step, Function.update_apply]
    split
    next same =>
      subst same
      exact NoteHelper.heldNote_addNoteListener _ _ _ _
    next => rfl

/-! ### Storing a note -/

theorem UpToDate.succ {held current : NoteTag C} (upToDate : UpToDate held current)
    (content : C) : UpToDate held ⟨content, current.version + 1⟩ := by
  have older := upToDate.older
  constructor
  · exact older.trans (Int.le_add_one le_rfl)
  · intro same
    change held.version = current.version + 1 at same
    omega

theorem UpToDate.refl (current : NoteTag C) : UpToDate current current :=
  ⟨le_rfl, fun _ => rfl⟩

theorem PersistentInvariant.set {files : NoteFiles} {held : ℕ → Option (NoteTag C)}
    {entry : PersistentNote C} (invariant : PersistentInvariant streams files last held entry)
    {note : C} {text : Bytes} (loads : streams.loadNote note text = some note) (time : ℤ) :
    PersistentInvariant streams (files.write entry.file text time) (some note) held
      { entry with note := ⟨note, entry.note.version + 1⟩ } := by
  constructor
  · exact Int.add_nonneg invariant.nonneg Int.one_nonneg
  · intro impossible
    cases impossible
  · intro content isLast
    exact Option.some.inj isLast
  · exact invariant.notLoaded
  · intro _ content isLast
    cases isLast
    exact ⟨⟨time, text⟩, SortedMap.find?_insert_self _ _ _, loads⟩
  · intro noteHelper other isHeld
    rcases invariant.held noteHelper other isHeld with placeholder | ⟨loaded, upToDate⟩
    · exact Or.inl placeholder
    · exact Or.inr ⟨loaded, upToDate.succ note⟩

theorem PlainInvariant.set {held : ℕ → Option (NoteTag C)} {stored : Option (NoteTag C)}
    (invariant : PlainInvariant last held stored) (note : C) :
    PlainInvariant (some note) held
      (some ⟨note, NoteManager.nextVersion stored⟩) := by
  constructor
  · rfl
  · intro noteHelper other isHeld
    rcases invariant.held noteHelper other isHeld with ⟨current, rfl, upToDate⟩
    exact ⟨_, rfl, upToDate.succ note⟩

/-- Saving the note succeeds, and the saved text can be loaded into the same note. -/
def NoteStreams.Saves (streams : NoteStreams C) (note : C) : Prop :=
  ∃ text, streams.saveNote note = .saved text ∧ streams.loadNote note text = some note

theorem setNote_invariant {name : Bytes} {note : C} {time : ℤ} {ownLast : Option C}
    (saves : (state.manager.persistentNotes.find? name).isSome = true → streams.Saves note)
    (own : NameInvariant streams state ownLast name)
    (invariant : NameInvariant streams state last noteName) :
    NameInvariant streams (state.step streams (.setNote name note time))
      ((NoteAction.setNote name note time).stored noteName last) noteName := by
  cases own with
  | persistent entry registered notPlain file ownInvariant =>
      rcases saves (by rw [registered]; rfl) with ⟨text, saved, loads⟩
      simp only [NoteSystem.step, NoteManager.setNote, registered, saved, NoteAction.stored]
      cases Decidable.em (noteName = name) with
      | inr different =>
          rw [if_neg (Ne.symm different)]
          apply invariant.of_sameName
          constructor
          · exact SortedMap.find?_insert_of_ne _ different _
          · rfl
          · rfl
          · apply SortedMap.find?_insert_of_ne
            rw [file]
            exact fun equal => different (noteFilename_injective equal)
          · intro _
            rfl
      | inl same =>
          subst same
          rw [if_pos rfl]
          apply NameInvariant.persistent
          · exact SortedMap.find?_insert_self _ _ _
          · exact notPlain
          · exact file
          · exact ownInvariant.set loads time
  | plain notRegistered ownInvariant =>
      simp only [NoteSystem.step, NoteManager.setNote, notRegistered, NoteAction.stored]
      cases Decidable.em (noteName = name) with
      | inr different =>
          rw [if_neg (Ne.symm different)]
          apply invariant.of_sameName
          constructor
          · rfl
          · exact SortedMap.find?_insert_of_ne _ different _
          · rfl
          · rfl
          · intro _
            rfl
      | inl same =>
          subst same
          rw [if_pos rfl]
          apply NameInvariant.plain
          · exact notRegistered
          · rw [SortedMap.find?_insert_self]
            exact ownInvariant.set note

/-! ### Checking for updates -/

/-- A note that is stored but not loaded is read back from its file. -/
theorem PersistentInvariant.readBack {files : NoteFiles} {held : ℕ → Option (NoteTag C)}
    {entry : PersistentNote C} (invariant : PersistentInvariant streams files last held entry)
    (notLoaded : entry.isLoaded = false) {content : C} (isLast : last = some content) :
    ∃ file, files.find? entry.file = some file ∧
      streams.loadNote entry.note.content file.text = some entry.note.content := by
  rw [invariant.current content isLast]
  exact invariant.onDisk notLoaded content isLast

/-- Nothing is stored for a note that cannot be read. -/
theorem PersistentInvariant.last_eq_none {files : NoteFiles} {held : ℕ → Option (NoteTag C)}
    {entry : PersistentNote C} (invariant : PersistentInvariant streams files last held entry)
    (notLoaded : entry.isLoaded = false)
    (notRead : ∀ file, files.find? entry.file = some file →
      streams.loadNote entry.note.content file.text = none) : last = none := by
  cases isLast : last with
  | none => rfl
  | some content =>
      rcases invariant.readBack notLoaded isLast with ⟨file, found, loads⟩
      rw [notRead file found] at loads
      cases loads

/-- An entry that is read from its file is loaded, and its note is the one that was stored. -/
theorem PersistentInvariant.ofRead {files : NoteFiles} {held : ℕ → Option (NoteTag C)}
    {entry : PersistentNote C} (invariant : PersistentInvariant streams files last held entry)
    (notLoaded : entry.isLoaded = false) {file : NoteFile}
    (found : files.find? entry.file = some file) {text : C}
    (read : streams.loadNote entry.note.content file.text = some text) :
    PersistentInvariant streams files last held
      { entry with
        modifiedTime := .ticks file.mtime, note := ⟨text, 0⟩, isLoaded := true } := by
  constructor
  · exact le_rfl
  · intro _
    rfl
  · intro content isLast
    rcases invariant.readBack notLoaded isLast with ⟨_, exists_, loads⟩
    cases found.symm.trans exists_
    exact (Option.some.inj (read.symm.trans loads)).trans (invariant.current content isLast)
  · intro impossible
    cases impossible
  · intro impossible
    cases impossible
  · intro noteHelper note isHeld
    rcases invariant.held noteHelper note isHeld with placeholder | ⟨isLoaded, _⟩
    · exact Or.inl placeholder
    · rw [notLoaded] at isLoaded
      cases isLoaded

/-- Loading keeps the invariant, and what is stored is loaded afterwards. -/
theorem PersistentInvariant.load {files : NoteFiles} {held : ℕ → Option (NoteTag C)}
    {entry : PersistentNote C} (invariant : PersistentInvariant streams files last held entry) :
    PersistentInvariant streams files last held (entry.load streams files) ∧
      (last = none ∨ (entry.load streams files).isLoaded = true) := by
  cases loaded : entry.isLoaded with
  | true =>
      have unchanged : entry.load streams files = entry := by simp [PersistentNote.load, loaded]
      rw [unchanged]
      exact ⟨invariant, Or.inr loaded⟩
  | false =>
      have fresh := invariant.notLoaded loaded
      cases found : files.find? entry.file with
      | none =>
          have unchanged : entry.load streams files = entry := by
            simp [PersistentNote.load, NoteFiles.modifiedTime, loaded, found, PTime.isSpecial]
          rw [unchanged]
          constructor
          · exact invariant
          · apply Or.inl
            apply invariant.last_eq_none loaded
            intro file exists_
            rw [found] at exists_
            cases exists_
      | some file =>
          cases read : streams.loadNote entry.note.content file.text with
          | none =>
              have unchanged : entry.load streams files = entry := by
                simp [PersistentNote.load, NoteFiles.modifiedTime, NoteFiles.read, loaded, found,
                  fresh, read]
              rw [unchanged]
              constructor
              · exact invariant
              · apply Or.inl
                apply invariant.last_eq_none loaded
                intro other exists_
                cases found.symm.trans exists_
                exact read
          | some text =>
              have changed : entry.load streams files =
                  { entry with
                    modifiedTime := .ticks file.mtime, note := ⟨text, 0⟩, isLoaded := true } := by
                have finite : (PTime.ticks file.mtime).isSpecial = false := rfl
                simp [PersistentNote.load, NoteFiles.modifiedTime, NoteFiles.read, loaded, found,
                  fresh, read, finite]
              rw [changed]
              exact ⟨invariant.ofRead loaded found read, Or.inr rfl⟩

/-- A helper may take the note of the entry. -/
theorem PersistentInvariant.offer {files : NoteFiles} {before after : ℕ → Option (NoteTag C)}
    {entry : PersistentNote C} (invariant : PersistentInvariant streams files last before entry)
    (loaded : last = none ∨ entry.isLoaded = true)
    (taken : ∀ noteHelper note, after noteHelper = some note →
      before noteHelper = some note ∨ note = entry.note) :
    PersistentInvariant streams files last after entry := by
  refine { invariant with held := ?_ }
  intro noteHelper note isHeld
  rcases taken noteHelper note isHeld with kept | rfl
  · exact invariant.held noteHelper note kept
  · rcases loaded with unset | loaded
    · exact Or.inl (invariant.unset unset)
    · exact Or.inr ⟨loaded, UpToDate.refl _⟩

theorem PlainInvariant.offer {before after : ℕ → Option (NoteTag C)}
    {stored : Option (NoteTag C)} (invariant : PlainInvariant last before stored)
    (taken : ∀ noteHelper note, after noteHelper = some note →
      before noteHelper = some note ∨ stored = some note) :
    PlainInvariant last after stored := by
  refine { invariant with held := ?_ }
  intro noteHelper note isHeld
  rcases taken noteHelper note isHeld with kept | current
  · exact invariant.held noteHelper note kept
  · exact ⟨note, current, UpToDate.refl _⟩

theorem checkForUpdatedNotes_invariant (noteHelper : Option ℕ)
    (invariant : NameInvariant streams state last noteName) :
    NameInvariant streams (state.step streams (.checkForUpdatedNotes noteHelper)) last
      noteName := by
  have loadedNotes := fun noteName =>
    NoteManager.find?_loadPersistentNotes streams state.files state.manager noteName
  cases invariant with
  | persistent entry registered notPlain file invariant =>
      have registered' : (state.manager.loadPersistentNotes streams
          state.files).persistentNotes.find? noteName = some (entry.load streams state.files) := by
        rw [loadedNotes, registered]
        rfl
      rcases invariant.load with ⟨loadedInvariant, loaded⟩
      have file' : (entry.load streams state.files).file =
          NoteManager.noteFilename state.manager.persistentNotePath noteName := by
        rw [PersistentNote.file_load, file]
      cases noteHelper with
      | none => exact .persistent _ registered' notPlain file' loadedInvariant
      | some noteHelper =>
          refine .persistent _ registered' notPlain file' (loadedInvariant.offer loaded ?_)
          intro other note isHeld
          simp only [NoteSystem.step, Function.update_apply] at isHeld
          split at isHeld
          next same =>
            subst same
            exact NoteHelper.heldNote_of_offered
              (NoteManager.find?_updateHelper_persistent registered' notPlain _) isHeld
          next => exact Or.inl isHeld
  | plain notRegistered invariant =>
      have notRegistered' : (state.manager.loadPersistentNotes streams
          state.files).persistentNotes.find? noteName = none := by
        rw [loadedNotes, notRegistered]
        rfl
      cases noteHelper with
      | none => exact .plain notRegistered' invariant
      | some noteHelper =>
          refine .plain notRegistered' (invariant.offer ?_)
          intro other note isHeld
          simp only [NoteSystem.step, Function.update_apply] at isHeld
          split at isHeld
          next same =>
            subst same
            have offered := NoteManager.find?_updateHelper_plain notRegistered'
              (state.helpers other)
            cases stored : state.manager.notes.find? noteName with
            | none =>
                rw [show (state.manager.loadPersistentNotes streams
                  state.files).notes.find? noteName = none from stored] at offered
                rw [NoteHelper.heldNote, offered] at isHeld
                exact Or.inl isHeld
            | some current =>
                rw [show (state.manager.loadPersistentNotes streams
                  state.files).notes.find? noteName = some current from stored] at offered
                rcases NoteHelper.heldNote_of_offered offered isHeld with kept | equal
                · exact Or.inl kept
                · exact Or.inr (congrArg some equal.symm)
          next => exact Or.inl isHeld

end Steps

/-! ## Runs -/

/-- No placeholder of a registration is left: the note that a helper holds of an entry was
loaded with the entry or taken later, unless nothing is on disk. -/
def NoStalePlaceholder (files : NoteFiles) (entry : PersistentNote C) (held : NoteTag C) : Prop :=
  if entry.isLoaded = true then entry.note.version = 0 → held.content = entry.note.content
  else files.find? entry.file = none

/-- A name is registered before it is stored, and a check finds no stale placeholder. -/
def IsSafeCall (state : NoteSystem C) : NoteAction C → Prop
  | .registerPersistentNote noteName _ => state.manager.notes.find? noteName = none
  | .checkForUpdatedNotes (some noteHelper) =>
      ∀ noteName entry held, state.manager.persistentNotes.find? noteName = some entry →
        (state.helpers noteHelper).heldNote noteName = some held →
        NoStalePlaceholder state.files entry held
  | _ => True

/-- Saving and loading the notes that a call stores succeed. -/
def DiskSucceeds (streams : NoteStreams C) (state : NoteSystem C) : NoteAction C → Prop
  | .setNote noteName note _ =>
      (state.manager.persistentNotes.find? noteName).isSome = true → streams.Saves note
  | _ => True

/-- After every check the helper holds, of each name it listens to, the note stored last. -/
def HoldsLastStored (streams : NoteStreams C) (start : NoteSystem C)
    (calls : List (NoteAction C)) : Prop :=
  ∀ earlier noteHelper later,
    calls = earlier ++ .checkForUpdatedNotes (some noteHelper) :: later →
    ∀ noteName element note,
      ((Runs.run (NoteSystem.step streams) start
        (earlier ++ [.checkForUpdatedNotes (some noteHelper)])).helpers noteHelper).notes.find?
          noteName = some element →
      lastStored earlier noteName = some note →
      element.note.map NoteTag.content = some note

/-- One call keeps the invariant of every name. -/
theorem NameInvariant.step {streams : NoteStreams C} {state : NoteSystem C}
    {earlier : List (NoteAction C)}
    (invariant : ∀ noteName, NameInvariant streams state (lastStored earlier noteName) noteName)
    {call : NoteAction C} (isSafe : IsSafeCall state call)
    (disk : DiskSucceeds streams state call) (noteName : Bytes) :
    NameInvariant streams (state.step streams call) (lastStored (earlier ++ [call]) noteName)
      noteName := by
  rw [lastStored_append]
  cases call with
  | registerPersistentNote name note =>
      exact registerPersistentNote_invariant isSafe (invariant noteName)
  | addNoteListener noteHelper name listener => exact addNoteListener_invariant (invariant noteName)
  | setNote name note time => exact setNote_invariant disk (invariant name) (invariant noteName)
  | checkForUpdatedNotes noteHelper =>
      exact checkForUpdatedNotes_invariant noteHelper (invariant noteName)

/-- What a check does for the name of a note that was stored. -/
theorem NameInvariant.holds_of_check {streams : NoteStreams C} {state : NoteSystem C} {note : C}
    {noteName : Bytes} (invariant : NameInvariant streams state (some note) noteName)
    {noteHelper : ℕ} (isSafe : IsSafeCall state (.checkForUpdatedNotes (some noteHelper)))
    {element : NoteListenerElement C}
    (listens : ((state.step streams (.checkForUpdatedNotes (some noteHelper))).helpers
      noteHelper).notes.find? noteName = some element) :
    element.note.map NoteTag.content = some note := by
  simp only [NoteSystem.step, Function.update_self] at listens
  cases invariant with
  | persistent entry registered notPlain file invariant =>
      have registered' : (state.manager.loadPersistentNotes streams
          state.files).persistentNotes.find? noteName = some (entry.load streams state.files) := by
        rw [NoteManager.find?_loadPersistentNotes, registered]
        rfl
      rw [NoteManager.find?_updateHelper_persistent registered' notPlain] at listens
      rcases Option.map_eq_some_iff.mp listens with ⟨before, found, rfl⟩
      have current := invariant.load.1.current note rfl
      rw [NoteListenerElement.note_updateNote, Option.map_some, ← current]
      congr 1
      apply NoteListenerElement.content_keepOrTake
      intro held isHeld sameVersion
      have heldBefore : (state.helpers noteHelper).heldNote noteName = some held := by
        rw [NoteHelper.heldNote, found]
        exact isHeld
      have fresh := isSafe noteName entry held registered heldBefore
      cases loaded : entry.isLoaded with
      | false =>
          rcases invariant.onDisk loaded note rfl with ⟨_, stored, _⟩
          rw [NoStalePlaceholder, loaded, if_neg Bool.false_ne_true, stored] at fresh
          cases fresh
      | true =>
          have unchanged : entry.load streams state.files = entry := by
            simp [PersistentNote.load, loaded]
          rw [NoStalePlaceholder, if_pos loaded] at fresh
          rw [unchanged] at sameVersion ⊢
          rcases invariant.held noteHelper held heldBefore with placeholder | ⟨_, upToDate⟩
          · exact fresh (sameVersion ▸ placeholder)
          · exact upToDate.same sameVersion
  | plain notRegistered invariant =>
      have notRegistered' : (state.manager.loadPersistentNotes streams
          state.files).persistentNotes.find? noteName = none := by
        rw [NoteManager.find?_loadPersistentNotes, notRegistered]
        rfl
      rcases Option.map_eq_some_iff.mp invariant.current with ⟨stored, isStored, content⟩
      rw [NoteManager.find?_updateHelper_plain notRegistered',
        show (state.manager.loadPersistentNotes streams
          state.files).notes.find? noteName = some stored from isStored] at listens
      rcases Option.map_eq_some_iff.mp listens with ⟨before, found, rfl⟩
      rw [NoteListenerElement.note_updateNote, Option.map_some, ← content]
      congr 1
      apply NoteListenerElement.content_keepOrTake
      intro held isHeld sameVersion
      have heldBefore : (state.helpers noteHelper).heldNote noteName = some held := by
        rw [NoteHelper.heldNote, found]
        exact isHeld
      rcases invariant.held noteHelper held heldBefore with ⟨current, isCurrent, upToDate⟩
      rw [isStored] at isCurrent
      cases isCurrent
      exact upToDate.same sameVersion

theorem nameInvariant_start (streams : NoteStreams C) (persistentNotePath : Bytes)
    (files : NoteFiles) (noteName : Bytes) :
    NameInvariant streams (NoteSystem.start persistentNotePath files) (lastStored [] noteName)
      noteName := by
  apply NameInvariant.plain rfl
  constructor
  · rfl
  · intro noteHelper note isHeld
    cases isHeld

/-- No update is lost in a run of safe calls. -/
theorem holdsLastStored_of_safeCalls (streams : NoteStreams C) (persistentNotePath : Bytes)
    (files : NoteFiles) (calls : List (NoteAction C))
    (disk : Runs.EachStep (NoteSystem.step streams) (DiskSucceeds streams)
      (NoteSystem.start persistentNotePath files) calls)
    (each : Runs.EachStep (NoteSystem.step streams) IsSafeCall
      (NoteSystem.start persistentNotePath files) calls) :
    HoldsLastStored streams (NoteSystem.start persistentNotePath files) calls := by
  intro earlier noteHelper later split noteName element note listens isLast
  rw [split, Runs.eachStep_append] at each disk
  have invariant : ∀ noteName, NameInvariant streams
      (Runs.run (NoteSystem.step streams) (NoteSystem.start persistentNotePath files) earlier)
      (lastStored earlier noteName) noteName := by
    refine Runs.EachStep.historyInvariant
      (fun earlier state =>
        ∀ noteName, NameInvariant streams state (lastStored earlier noteName) noteName)
      ?_ (nameInvariant_start streams persistentNotePath files) (each.1.and disk.1)
    intro earlier state call invariant good noteName
    exact NameInvariant.step invariant good.1 good.2 noteName
  have own := invariant noteName
  rw [isLast] at own
  rw [Runs.run_append] at listens
  exact own.holds_of_check each.2.1 listens

/-! ### A placeholder that stays -/

section Placeholder

/-- Notes whose text is their content. -/
def plainText : NoteStreams Bytes := ⟨fun content => .saved content, fun _ text => some text⟩

/-- A helper is checked after the first store of a name only. -/
theorem holdsLastStored_of_safeCalls_storedFirst :
    HoldsLastStored plainText (NoteSystem.start [] ∅)
      [.registerPersistentNote (Bytes.str "reftimes") (some []),
       .addNoteListener 0 (Bytes.str "reftimes") 1,
       .setNote (Bytes.str "reftimes") (Bytes.str "arome") 10,
       .checkForUpdatedNotes (some 0)] := by
  apply holdsLastStored_of_safeCalls
  · refine ⟨trivial, trivial, ?_, trivial, trivial⟩
    intro _
    exact ⟨_, rfl, rfl⟩
  · refine ⟨rfl, trivial, trivial, ?_, trivial⟩
    intro noteName entry held _ isHeld
    have nothing := NoteHelper.heldNote_addNoteListener (⟨∅⟩ : NoteHelper Bytes)
      (Bytes.str "reftimes") noteName 1
    cases nothing.symm.trans isHeld

/-- A helper is checked between the registration and the first store of a name. -/
def checkedBeforeStored : List (NoteAction Bytes) :=
  [.registerPersistentNote (Bytes.str "reftimes") (some []),
   .addNoteListener 0 (Bytes.str "reftimes") 1,
   .checkForUpdatedNotes (some 0),
   .setNote (Bytes.str "reftimes") (Bytes.str "arome") 10,
   .checkForUpdatedNotes (some 0)]

/-- The helper keeps the placeholder of the registration. -/
theorem not_holdsLastStored_checkedBeforeStored :
    ¬HoldsLastStored plainText (NoteSystem.start [] ∅) checkedBeforeStored := by
  intro holds
  have last := holds (checkedBeforeStored.take 4) 0 [] rfl (Bytes.str "reftimes")
    ⟨[1], some ⟨[], 0⟩⟩ (Bytes.str "arome") (by decide) (by decide)
  revert last
  decide

end Placeholder

end Wdb2ts
