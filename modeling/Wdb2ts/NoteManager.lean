import Wdb2ts.Lib.Bytes
import Wdb2ts.Lib.SortedMap
import Wdb2ts.PTime

/-!
# Notes between handlers

Handlers leave named notes at a `NoteManager`.  A `NoteHelper` holds the last note it has
seen of every name it listens to, and replaces it when the version of the stored note is
another one.  Persistent notes are also saved to disk, and loaded from there at the first
check that finds a file.
-/

namespace Wdb2ts

/-- A note.  The content stands for the derived class and its members. -/
structure NoteTag (C : Type) where
  content : C
  version : ℤ
  deriving DecidableEq

/-- The outcomes of `NoteTag::saveNote`. -/
inductive SaveResult where
  | saved (text : Bytes)
  | failed
  | thrown

/-- The virtual functions of a note.  `loadNote` is called on the content in place. -/
structure NoteStreams (C : Type) where
  saveNote : C → SaveResult
  loadNote : C → Bytes → Option C

/-- A file with its modification time. -/
structure NoteFile where
  mtime : ℤ
  text : Bytes
  deriving DecidableEq

/-- The files by name. -/
abbrev NoteFiles := SortedMap Bytes NoteFile

namespace NoteFiles

/-- `FileLockHelper::modifiedTime`, which is special when there is no file. -/
def modifiedTime (files : NoteFiles) (filename : Bytes) : PTime :=
  match files.find? filename with
  | none => .notADateTime
  | some file => .ticks file.mtime

/-- `FileLockHelper::read`. -/
def read (files : NoteFiles) (filename : Bytes) : Option Bytes :=
  (files.find? filename).map NoteFile.text

/-- `FileLockHelper::write`. -/
def write (files : NoteFiles) (filename text : Bytes) (time : ℤ) : NoteFiles :=
  files.insert filename ⟨time, text⟩

end NoteFiles

/-! ## Helpers -/

/-- The address of an `INoteUpdateListener`. -/
abbrev Listener := ℕ

/-- `NoteHelper::NoteListenerElement`. -/
structure NoteListenerElement (C : Type) where
  listeners : List Listener
  note : Option (NoteTag C)
  deriving DecidableEq

namespace NoteListenerElement

variable {C : Type}

/-- `NoteListenerElement::callListeners`. -/
def callListeners (element : NoteListenerElement C) (noteName : Bytes) :
    List (Listener × Bytes × NoteTag C) :=
  match element.note with
  | none => []
  | some note => element.listeners.map fun listener => (listener, noteName, note)

/-- `NoteListenerElement::addListener`. -/
def addListener (element : NoteListenerElement C) (listener : Listener) :
    NoteListenerElement C :=
  if listener ∈ element.listeners then element
  else { element with listeners := element.listeners ++ [listener] }

/-- `NoteListenerElement::updateNote`. -/
def updateNote (element : NoteListenerElement C) (note : NoteTag C) :
    Bool × NoteListenerElement C :=
  match element.note with
  | none => (true, { element with note := some note })
  | some held =>
      if held.version ≠ note.version then (true, { element with note := some note })
      else (false, element)

end NoteListenerElement

/-- `NoteHelper`. -/
structure NoteHelper (C : Type) where
  notes : SortedMap Bytes (NoteListenerElement C)

namespace NoteHelper

variable {C : Type}

/-- `NoteHelper::updateNote`. -/
def updateNote (helper : NoteHelper C) (noteName : Bytes) (note : NoteTag C) :
    Bool × NoteHelper C :=
  match helper.notes.find? noteName with
  | none => (false, helper)
  | some element =>
      let updated := element.updateNote note
      (updated.1, ⟨helper.notes.insert noteName updated.2⟩)

/-- `NoteHelper::callListeners`. -/
def callListeners (helper : NoteHelper C) (noteList : List Bytes) :
    List (Listener × Bytes × NoteTag C) :=
  noteList.flatMap fun noteName =>
    match helper.notes.find? noteName with
    | none => []
    | some element => element.callListeners noteName

/-- `NoteHelper::addNoteListener`. -/
def addNoteListener (helper : NoteHelper C) (noteName : Bytes) (listener : Listener) :
    NoteHelper C :=
  match helper.notes.find? noteName with
  | none => ⟨helper.notes.insert noteName ⟨[listener], none⟩⟩
  | some element => ⟨helper.notes.insert noteName (element.addListener listener)⟩

end NoteHelper

/-! ## The manager -/

/-- `NoteManager::PersistentNote`, with the name of its file. -/
structure PersistentNote (C : Type) where
  file : Bytes
  modifiedTime : PTime
  note : NoteTag C
  isLoaded : Bool

namespace PersistentNote

variable {C : Type}

/-- The constructor of `PersistentNote`. -/
def create (filename : Bytes) (note : C) : PersistentNote C :=
  { file := filename, modifiedTime := default, note := ⟨note, 0⟩, isLoaded := false }

/-- The body of the loop of `loadPersistentNotes`. -/
def load (streams : NoteStreams C) (files : NoteFiles) (entry : PersistentNote C) :
    PersistentNote C :=
  if entry.isLoaded then entry
  else
    let mtime := files.modifiedTime entry.file
    if mtime.isSpecial then entry
    else if !entry.modifiedTime.isSpecial && decide (mtime ≤ entry.modifiedTime) then entry
    else
      match files.read entry.file with
      | none => entry
      | some text =>
          match streams.loadNote entry.note.content text with
          | none => entry
          | some content =>
              { entry with modifiedTime := mtime, note := ⟨content, 0⟩, isLoaded := true }

end PersistentNote

/-- `NoteManager`. -/
structure NoteManager (C : Type) where
  persistentNotePath : Bytes
  persistentNotes : SortedMap Bytes (PersistentNote C)
  notes : SortedMap Bytes (NoteTag C)

namespace NoteManager

variable {C : Type}

/-- The file of a persistent note. -/
def noteFilename (persistentNotePath noteName : Bytes) : Bytes :=
  persistentNotePath ++ Bytes.str "/" ++ noteName ++ Bytes.str ".note"

/-- `NoteManager::registerPersistentNote`. -/
def registerPersistentNote (manager : NoteManager C) (noteName : Bytes) (note : Option C) :
    NoteManager C :=
  match note with
  | none => manager
  | some note =>
      match manager.persistentNotes.find? noteName with
      | some _ => manager
      | none =>
          { manager with
            persistentNotes := manager.persistentNotes.insert noteName
              (PersistentNote.create (noteFilename manager.persistentNotePath noteName) note) }

/-- `NoteManager::loadPersistentNotes`. -/
def loadPersistentNotes (streams : NoteStreams C) (files : NoteFiles)
    (manager : NoteManager C) : NoteManager C :=
  { manager with
    persistentNotes := manager.persistentNotes.mapValues (PersistentNote.load streams files) }

/-- Offer a note to a helper, and remember its name when the helper takes it. -/
def offer (state : NoteHelper C × List Bytes) (named : Bytes × NoteTag C) :
    NoteHelper C × List Bytes :=
  let updated := state.1.updateNote named.1 named.2
  (updated.2, if updated.1 then state.2 ++ [named.1] else state.2)

/-- `NoteManager::checkForUpdatedNotes` for a helper, after the notes are loaded.  Returns
the helper and the calls of the listeners. -/
def updateHelper (manager : NoteManager C) (noteHelper : NoteHelper C) :
    NoteHelper C × List (Listener × Bytes × NoteTag C) :=
  let persistent := (manager.persistentNotes.mapValues PersistentNote.note).entries
  let updated := manager.notes.entries.foldl offer (persistent.foldl offer (noteHelper, []))
  (updated.1, updated.1.callListeners updated.2)

/-- The version of a note that replaces another one, if there is one. -/
def nextVersion : Option (NoteTag C) → ℤ
  | none => 0
  | some old => old.version + 1

/-- `NoteManager::setNote`, with the time of the write. -/
def setNote (streams : NoteStreams C) (files : NoteFiles) (manager : NoteManager C)
    (noteName : Bytes) (note : C) (time : ℤ) : NoteManager C × NoteFiles :=
  match manager.persistentNotes.find? noteName with
  | some entry =>
      let updated :=
        { manager with
          persistentNotes := manager.persistentNotes.insert noteName
            { entry with note := ⟨note, entry.note.version + 1⟩ } }
      match streams.saveNote note with
      | .failed => (manager, files)
      | .thrown => (updated, files)
      | .saved text => (updated, files.write entry.file text time)
  | none =>
      let version := nextVersion (manager.notes.find? noteName)
      ({ manager with notes := manager.notes.insert noteName ⟨note, version⟩ }, files)

end NoteManager

/-! ## The system -/

/-- A manager with the disk and the helpers it serves. -/
structure NoteSystem (C : Type) where
  manager : NoteManager C
  files : NoteFiles
  helpers : ℕ → NoteHelper C

/-- The calls that the handlers interleave. -/
inductive NoteAction (C : Type) where
  | registerPersistentNote (noteName : Bytes) (note : Option C)
  | addNoteListener (noteHelper : ℕ) (noteName : Bytes) (listener : Listener)
  | setNote (noteName : Bytes) (note : C) (time : ℤ)
  | checkForUpdatedNotes (noteHelper : Option ℕ)

namespace NoteSystem

variable {C : Type}

/-- A new manager with helpers that listen to nothing, and the files of earlier runs. -/
def start (persistentNotePath : Bytes) (files : NoteFiles) : NoteSystem C :=
  ⟨⟨persistentNotePath, ∅, ∅⟩, files, fun _ => ⟨∅⟩⟩

/-- One call, which holds the mutex of the manager. -/
def step (streams : NoteStreams C) (state : NoteSystem C) : NoteAction C → NoteSystem C
  | .registerPersistentNote noteName note =>
      { state with manager := state.manager.registerPersistentNote noteName note }
  | .addNoteListener noteHelper noteName listener =>
      { state with
        helpers := Function.update state.helpers noteHelper
          ((state.helpers noteHelper).addNoteListener noteName listener) }
  | .setNote noteName note time =>
      let stored := state.manager.setNote streams state.files noteName note time
      { state with manager := stored.1, files := stored.2 }
  | .checkForUpdatedNotes noteHelper =>
      let manager := state.manager.loadPersistentNotes streams state.files
      match noteHelper with
      | none => { state with manager := manager }
      | some noteHelper =>
          { state with
            manager := manager
            helpers := Function.update state.helpers noteHelper
              (manager.updateHelper (state.helpers noteHelper)).1 }

end NoteSystem

end Wdb2ts
