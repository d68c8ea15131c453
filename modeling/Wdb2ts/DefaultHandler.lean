import Wdb2ts.Lib.Runs
import Wdb2ts.RequestHandlerManager

/-!
# The default handler

The default handler of a path is looked up and installed in two critical sections.  It stays
registered under its own version as long as no other thread removes it between them.
-/

namespace Wdb2ts

namespace webfw

namespace DefaultRequestHandlerManager

variable {manager : DefaultRequestHandlerManager}

/-! ## What the operations change -/

theorem find_assign (manager : DefaultRequestHandlerManager) (path other : Bytes)
    (version otherVersion : Version) (reqHandler : RequestHandler) :
    (manager.assign path version reqHandler).findRequestHandlerPathImpl other otherVersion =
      if other = path ∧ otherVersion = version then some reqHandler
      else manager.findRequestHandlerPathImpl other otherVersion := by
  rw [assign, findRequestHandlerPathImpl, findRequestHandlerPathImpl, SortedMap.find?_upsert]
  by_cases samePath : other = path
  · subst samePath
    rw [if_pos rfl, Option.bind_some, SortedMap.find?_insert]
    cases manager.handlers.find? other <;> simp
  · simp [samePath]

theorem find_erase (manager : DefaultRequestHandlerManager) (path other : Bytes)
    (version otherVersion : Version) :
    (manager.erase path version).findRequestHandlerPathImpl other otherVersion =
      if other = path ∧ otherVersion = version then none
      else manager.findRequestHandlerPathImpl other otherVersion := by
  rw [erase, findRequestHandlerPathImpl, findRequestHandlerPathImpl, SortedMap.find?_upsert]
  by_cases samePath : other = path
  · subst samePath
    rw [if_pos rfl, Option.bind_some, SortedMap.find?_erase]
    cases manager.handlers.find? other <;> simp
  · simp [samePath]

/-- A handler that is not the default handler is registered under its own version. -/
def Keyed (manager : DefaultRequestHandlerManager) : Prop :=
  ∀ path version handler, manager.findRequestHandlerPathImpl path version = some handler →
    version ≠ Version.default → handler.version = version

/-- The default handler of a path is registered under its own version. -/
def NeverDangling (manager : DefaultRequestHandlerManager) : Prop :=
  ∀ path handler, manager.findRequestHandlerPathImpl path Version.default = some handler →
    manager.findRequestHandlerPathImpl path handler.version = some handler

/-- A handler of a path has the version of the default handler, or it is registered. -/
def Registered (manager : DefaultRequestHandlerManager) (path : Bytes) (handler : RequestHandler) :
    Prop :=
  handler.version = Version.default ∨
    manager.findRequestHandlerPathImpl path handler.version = some handler

/-! ## Handlers under their versions -/

theorem Keyed.assign (keyed : manager.Keyed) (path : Bytes) {version : Version}
    {handler : RequestHandler} (own : version ≠ Version.default → handler.version = version) :
    (manager.assign path version handler).Keyed := by
  intro other otherVersion found isFound notDefault
  rw [find_assign] at isFound
  split at isFound
  · next same =>
      cases isFound
      rw [same.2] at notDefault ⊢
      exact own notDefault
  · exact keyed other otherVersion found isFound notDefault

theorem Keyed.erase (keyed : manager.Keyed) (path : Bytes) (version : Version) :
    (manager.erase path version).Keyed := by
  intro other otherVersion found isFound notDefault
  rw [find_erase] at isFound
  split at isFound
  · cases isFound
  · exact keyed other otherVersion found isFound notDefault

theorem Keyed.addRequestHandler (keyed : manager.Keyed) (handler : RequestHandler) (path : Bytes) :
    (manager.addRequestHandler handler path).2.Keyed := by
  rw [DefaultRequestHandlerManager.addRequestHandler]
  split
  · exact keyed
  · exact keyed.assign path fun _ => rfl

theorem Keyed.removeRequestHandler (keyed : manager.Keyed) (path : Bytes) (version : Version) :
    (manager.removeRequestHandler path version).2.Keyed := by
  rw [DefaultRequestHandlerManager.removeRequestHandler]
  split
  · exact keyed
  · apply Keyed.erase
    split
    · exact keyed.erase path _
    · exact keyed

theorem Keyed.installDefault (keyed : manager.Keyed) (path : Bytes) (handler : RequestHandler) :
    (manager.installDefault path handler).2.Keyed := by
  rw [DefaultRequestHandlerManager.installDefault]
  split
  · exact keyed
  · exact keyed.assign path fun notDefault => absurd rfl notDefault

/-! ## Default handlers -/

/-- A new entry is sound when it is no default handler, or a registered one. -/
theorem NeverDangling.assign (sound : manager.NeverDangling) {path : Bytes} {version : Version}
    {handler : RequestHandler} (absent : manager.findRequestHandlerPathImpl path version = none)
    (registered : version = Version.default → manager.Registered path handler) :
    (manager.assign path version handler).NeverDangling := by
  intro other found isFound
  rw [find_assign] at isFound ⊢
  split at isFound
  · next same =>
      cases isFound
      rcases registered same.2.symm with isDefault | stays
      · rw [if_pos ⟨same.1, isDefault.trans same.2⟩]
      · rw [same.1, stays, ite_self]
  · have stays := sound other found isFound
    rw [if_neg, stays]
    rintro ⟨rfl, rfl⟩
    rw [absent] at stays
    cases stays

theorem NeverDangling.addRequestHandler (sound : manager.NeverDangling) (handler : RequestHandler)
    (path : Bytes) : (manager.addRequestHandler handler path).2.NeverDangling := by
  rw [DefaultRequestHandlerManager.addRequestHandler]
  split
  · exact sound
  · next absent => exact sound.assign absent fun isDefault => Or.inl isDefault

/-- A removed handler that is the default handler is removed as the default handler too. -/
theorem NeverDangling.removeRequestHandler (sound : manager.NeverDangling) (keyed : manager.Keyed)
    (path : Bytes) (version : Version) :
    (manager.removeRequestHandler path version).2.NeverDangling := by
  rw [DefaultRequestHandlerManager.removeRequestHandler]
  cases isHit : manager.findRequestHandlerPathImpl path version with
  | none => exact sound
  | some hit =>
      intro other found isFound
      dsimp only at isFound ⊢
      rw [find_erase] at isFound ⊢
      split at isFound
      · cases isFound
      next notErased =>
      cases clears : manager.removesDefault path version hit with
      | true =>
          rw [clears, if_pos rfl, find_erase] at isFound
          rw [if_pos rfl, find_erase]
          split at isFound
          · cases isFound
          next notCleared =>
          have elsewhere : other ≠ path := fun same => notCleared ⟨same, rfl⟩
          rw [if_neg fun both => elsewhere both.1, if_neg fun both => elsewhere both.1]
          exact sound other found isFound
      | false =>
          rw [clears, if_neg Bool.false_ne_true] at isFound
          rw [if_neg Bool.false_ne_true, if_neg, sound other found isFound]
          rintro ⟨rfl, rfl⟩
          have notDefault : found.version ≠ Version.default :=
            fun isDefault => notErased ⟨rfl, isDefault.symm⟩
          have hitVersion := keyed other found.version hit isHit notDefault
          simp [removesDefault, isFound, notDefault, hitVersion] at clears

/-- A handler is installed soundly exactly when it is registered, unless there is a default handler
already. -/
theorem NeverDangling.installDefault_iff (sound : manager.NeverDangling) (path : Bytes)
    (handler : RequestHandler) :
    (manager.installDefault path handler).2.NeverDangling ↔
      (manager.findRequestHandlerPathImpl path Version.default = none →
        manager.Registered path handler) := by
  rw [DefaultRequestHandlerManager.installDefault]
  cases present : manager.findRequestHandlerPathImpl path Version.default with
  | some other => simp [sound]
  | none =>
      constructor
      · intro installed _
        have stays := installed path handler (by rw [find_assign, if_pos ⟨rfl, rfl⟩])
        rw [find_assign] at stays
        split at stays
        · next same => exact Or.inl same.2
        · exact Or.inr stays
      · exact fun registered => sound.assign present fun _ => registered rfl

end DefaultRequestHandlerManager

/-! ## Threads -/

/-- A critical section of an operation on the manager. -/
inductive CriticalSection where
  | addRequestHandler (reqHandler : RequestHandler) (path : Bytes)
  | removeRequestHandler (path : Bytes) (version : Version)
  /-- The lookup of `setDefaultRequestHandler`. -/
  | findDefault (thread : ℕ) (path : Bytes) (version : Version)
  /-- The installation of `setDefaultRequestHandler`. -/
  | installDefault (thread : ℕ)
  deriving DecidableEq, Repr

/-- The manager, and what the threads between the critical sections of `setDefaultRequestHandler`
have found. -/
structure Threads where
  manager : DefaultRequestHandlerManager
  found : ℕ → Option (Bytes × RequestHandler)

namespace Threads

/-- The threads behind the constructor of the manager. -/
def create : Threads := ⟨DefaultRequestHandlerManager.create, fun _ => none⟩

/-- A thread runs a critical section.  It does not look up another handler before it has installed
the one it has found. -/
def step (threads : Threads) : CriticalSection → Threads
  | .addRequestHandler reqHandler path =>
      { threads with manager := (threads.manager.addRequestHandler reqHandler path).2 }
  | .removeRequestHandler path version =>
      { threads with manager := (threads.manager.removeRequestHandler path version).2 }
  | .findDefault thread path version =>
      match threads.found thread with
      | some _ => threads
      | none =>
          { threads with
            found := Function.update threads.found thread
              ((threads.manager.findRequestHandlerPathImpl path version).map fun reqHandler =>
                (path, reqHandler)) }
  | .installDefault thread =>
      match threads.found thread with
      | none => threads
      | some (path, reqHandler) =>
          { manager := (threads.manager.installDefault path reqHandler).2
            found := Function.update threads.found thread none }

/-- The handler that a thread installs is still registered, unless the path has got a default handler
meanwhile. -/
def InstallsRegistered (threads : Threads) (criticalSection : CriticalSection) : Prop :=
  ∀ thread path reqHandler, criticalSection = .installDefault thread →
    threads.found thread = some (path, reqHandler) →
      threads.manager.findRequestHandlerPathImpl path Version.default = none →
        threads.manager.Registered path reqHandler

theorem Keyed.step {threads : Threads} (keyed : threads.manager.Keyed)
    (criticalSection : CriticalSection) : (threads.step criticalSection).manager.Keyed := by
  cases criticalSection with
  | addRequestHandler reqHandler path => exact keyed.addRequestHandler reqHandler path
  | removeRequestHandler path version => exact keyed.removeRequestHandler path version
  | findDefault thread path version =>
      rw [Threads.step]
      split <;> exact keyed
  | installDefault thread =>
      rw [Threads.step]
      split
      · exact keyed
      · exact keyed.installDefault _ _

/-- A step keeps the default handlers registered exactly when it installs a registered handler. -/
theorem neverDangling_step_iff {threads : Threads} (keyed : threads.manager.Keyed)
    (sound : threads.manager.NeverDangling) (criticalSection : CriticalSection) :
    (threads.step criticalSection).manager.NeverDangling ↔
      threads.InstallsRegistered criticalSection := by
  cases criticalSection with
  | addRequestHandler reqHandler path =>
      exact iff_of_true (sound.addRequestHandler reqHandler path) nofun
  | removeRequestHandler path version =>
      exact iff_of_true (sound.removeRequestHandler keyed path version) nofun
  | findDefault thread path version =>
      refine iff_of_true ?_ nofun
      rw [Threads.step]
      split <;> exact sound
  | installDefault thread =>
      rw [Threads.step, InstallsRegistered]
      cases pending : threads.found thread with
      | none => exact iff_of_true sound (by rintro other path reqHandler ⟨⟩ isFound; simp_all)
      | some entry =>
          dsimp only
          rw [sound.installDefault_iff]
          constructor
          · rintro registered other path reqHandler ⟨⟩ isFound
            rw [pending, Option.some.injEq] at isFound
            subst isFound
            exact registered
          · intro installs
            exact installs thread entry.1 entry.2 rfl pending

theorem keyed_run (criticalSections : List CriticalSection) :
    (Runs.run step create criticalSections).manager.Keyed := by
  induction criticalSections using List.reverseRecOn with
  | nil => exact nofun
  | append_singleton earlier criticalSection ih =>
      rw [Runs.run_append]
      exact Keyed.step ih criticalSection

/-- The default handlers stay registered throughout a run exactly when every handler is installed
while it is registered. -/
theorem neverDangling_iff (criticalSections : List CriticalSection) :
    (∀ earlier, earlier <+: criticalSections →
      (Runs.run step create earlier).manager.NeverDangling) ↔
      Runs.EachStep step InstallsRegistered create criticalSections := by
  constructor
  · intro always
    rw [Runs.eachStep_iff_forall_split]
    intro earlier criticalSection later split
    have keyed := keyed_run earlier
    have before := always earlier (split ▸ List.prefix_append _ _)
    have after := always (earlier ++ [criticalSection])
      (split ▸ List.append_cons earlier criticalSection later ▸ List.prefix_append _ _)
    rw [Runs.run_append] at after
    exact (neverDangling_step_iff keyed before criticalSection).mp after
  · rintro each earlier ⟨later, rfl⟩
    have installs := ((Runs.eachStep_append earlier later).mp each).1
    have both : (Runs.run step create earlier).manager.Keyed ∧
        (Runs.run step create earlier).manager.NeverDangling := by
      apply installs.invariant fun threads => threads.manager.Keyed ∧ threads.manager.NeverDangling
      · rintro threads criticalSection ⟨keyed, sound⟩ registered
        exact ⟨Keyed.step keyed criticalSection,
          (neverDangling_step_iff keyed sound criticalSection).mpr registered⟩
      · exact ⟨nofun, nofun⟩
    exact both.2

/-- A handler is installed after another thread has removed it. -/
theorem dangling_removedBetween :
    ∃ criticalSections, ¬(Runs.run step create criticalSections).manager.NeverDangling := by
  let handler : RequestHandler := ⟨0, ⟨1, 2⟩⟩
  refine ⟨[.addRequestHandler handler (Bytes.str "/met/no"),
    .findDefault 0 (Bytes.str "/met/no") ⟨1, 2⟩,
    .removeRequestHandler (Bytes.str "/met/no") ⟨1, 2⟩, .installDefault 0], fun sound => ?_⟩
  have dangling := sound (Bytes.str "/met/no") handler rfl
  cases dangling

end Threads

end webfw

end Wdb2ts
