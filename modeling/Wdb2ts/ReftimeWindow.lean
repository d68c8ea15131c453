import Mathlib.Order.Bounds.Basic
import Wdb2ts.WdbQueryHelper

/-!
# The window of reference times

The queried window runs from the least to the greatest reference time of the enabled entries that
the providers ask for.  An entry may have no reference time.
-/

namespace Wdb2ts

namespace ProviderRefTimeList

/-- The keys are the texts of the providers that they denote, and no reference time is infinite. -/
structure WellFormed (reftimes : ProviderRefTimeList) : Prop where
  keys : ∀ entry ∈ reftimes.entries,
    (ProviderList.decodeItem entry.1).providerWithPlacename = entry.1
  times : ∀ entry ∈ reftimes.entries, entry.2.refTime.isSpecial = true →
    entry.2.refTime = .notADateTime

/-- The enabled entries that a provider asks for, in the order of the list. -/
def usable (reftimes : ProviderRefTimeList) (provider : Bytes) : List (Bytes × ProviderTimes) :=
  (reftimes.requested provider).filter fun entry => !entry.2.disabled

/-- The finite reference times of the enabled entries that one of some providers asks for. -/
def usableTimes (reftimes : ProviderRefTimeList) (providers : List Bytes) : Set ℤ :=
  {microseconds | ∃ provider ∈ providers, ∃ entry ∈ reftimes.usable provider,
    entry.2.refTime = .ticks microseconds}

/-- A window is found exactly when there is a time, and it runs from the least to the greatest
one. -/
structure IsExact (times : Set ℤ) (window : Option (PTime × PTime)) : Prop where
  found : window.isSome = true ↔ times.Nonempty
  bounds : ∀ from_ to_, window = some (from_, to_) → ∃ least greatest, IsLeast times least ∧
    IsGreatest times greatest ∧ from_ = .ticks least ∧ to_ = .ticks greatest

/-- Where the providers are looked up one after the other, no entry without a reference time is
behind one that has one. -/
def UndefinedFirst (reftimes : ProviderRefTimeList) (providers : List Bytes) : Prop :=
  (providers.flatMap reftimes.usable).Pairwise fun earlier later =>
    earlier.2.refTime.isSpecial = false → later.2.refTime.isSpecial = false

/-! ## One window -/

/-- The window of a list of times. -/
def windowOf (times : List PTime) : PTime × PTime :=
  times.foldl (fun window refTime => widen refTime window) default

theorem windowOf_concat (times : List PTime) (refTime : PTime) :
    windowOf (times ++ [refTime]) = widen refTime (windowOf times) :=
  List.foldl_concat ..

/-- The window that is returned, if any. -/
def foundWindow (window : PTime × PTime) : Option (PTime × PTime) :=
  if window.1.isSpecial then none else some window

/-- The finite times of a list. -/
def ticksOf (times : List PTime) : Set ℤ := {microseconds | .ticks microseconds ∈ times}

/-- No time is infinite. -/
def NoInfinity (times : List PTime) : Prop :=
  ∀ refTime ∈ times, refTime.isSpecial = true → refTime = .notADateTime

/-- No undefined time is behind a finite one. -/
def UndefinedTimesFirst (times : List PTime) : Prop :=
  times.Pairwise fun earlier later => earlier.isSpecial = false → later.isSpecial = false

/-- The window after some times: it is undefined, or it has the bounds of the finite ones. -/
inductive Bounded (times : List PTime) : PTime × PTime → Prop where
  | undefined {from_ to_ : PTime} (special : from_.isSpecial = true)
      (none : ∀ refTime ∈ times, refTime.isSpecial = true) : Bounded times (from_, to_)
  | bounds {least greatest : ℤ} (isLeast : IsLeast (ticksOf times) least)
      (isGreatest : IsGreatest (ticksOf times) greatest) :
      Bounded times (.ticks least, .ticks greatest)

theorem ticksOf_concat_ticks (times : List PTime) (microseconds : ℤ) :
    ticksOf (times ++ [.ticks microseconds]) = insert microseconds (ticksOf times) := by
  ext other
  simp only [ticksOf, Set.mem_ofPred_eq, List.mem_append, List.mem_singleton, Set.mem_insert_iff,
    PTime.ticks.injEq]
  exact or_comm

theorem ticksOf_of_special {times : List PTime}
    (none : ∀ refTime ∈ times, refTime.isSpecial = true) : ticksOf times = ∅ := by
  rw [Set.eq_empty_iff_forall_notMem]
  intro microseconds member
  cases none _ member

/-- The counter of an undefined time is behind those of the finite ones. -/
theorem le_undefined {refTime : PTime}
    (noInfinity : refTime.isSpecial = true → refTime = .notADateTime) :
    refTime ≤ .notADateTime := by
  cases refTime with
  | ticks microseconds => rfl
  | negInfinity => rfl
  | notADateTime => exact le_rfl
  | posInfinity => cases noInfinity rfl

/-- A finite time is one of the bounds, or it is between them. -/
theorem Bounded.widen_ticks {times : List PTime} {window : PTime × PTime}
    (bounded : Bounded times window) (microseconds : ℤ) :
    Bounded (times ++ [.ticks microseconds]) (widen (.ticks microseconds) window) := by
  cases bounded with
  | undefined special none =>
      have only : ticksOf (times ++ [.ticks microseconds]) = {microseconds} := by
        rw [ticksOf_concat_ticks, ticksOf_of_special none]
        exact insert_empty_eq microseconds
      rw [widen, if_pos special]
      apply Bounded.bounds
      · rw [only]
        exact isLeast_singleton
      · rw [only]
        exact isGreatest_singleton
  | @bounds least greatest isLeast isGreatest =>
      have ordered : least ≤ greatest := isLeast.2 isGreatest.1
      have widened : widen (.ticks microseconds) (.ticks least, .ticks greatest) =
          (.ticks (min microseconds least), .ticks (max microseconds greatest)) := by
        simp only [widen, PTime.isSpecial_ticks, Bool.false_eq_true, if_false,
          PTime.ticks_lt_ticks]
        by_cases later : greatest < microseconds
        · rw [if_pos later, min_eq_right (ordered.trans later.le), max_eq_left later.le]
        · rw [if_neg later, max_eq_right (not_lt.mp later)]
          by_cases earlier : microseconds < least
          · rw [if_pos earlier, min_eq_left earlier.le]
          · rw [if_neg earlier, min_eq_right (not_lt.mp earlier)]
      rw [widened]
      apply Bounded.bounds
      · rw [ticksOf_concat_ticks]
        exact isLeast.insert microseconds
      · rw [ticksOf_concat_ticks]
        exact isGreatest.insert microseconds

/-- The window has the bounds of the times when the undefined ones are first. -/
theorem bounded_windowOf {times : List PTime} (first : UndefinedTimesFirst times) :
    Bounded times (windowOf times) := by
  induction times using List.reverseRecOn with
  | nil => exact .undefined rfl fun refTime member => absurd member List.not_mem_nil
  | append_singleton times refTime ih =>
      obtain ⟨front, -, behind⟩ := List.pairwise_append.mp first
      have bounded := ih front
      rw [windowOf_concat]
      cases special : refTime.isSpecial with
      | false =>
          cases refTime with
          | ticks microseconds => exact bounded.widen_ticks microseconds
          | negInfinity => cases special
          | notADateTime => cases special
          | posInfinity => cases special
      | true =>
          have none : ∀ other ∈ times, other.isSpecial = true := by
            intro other member
            by_contra finite
            rw [Bool.not_eq_true] at finite
            rw [behind other member refTime (List.mem_singleton_self _) finite] at special
            cases special
          have all : ∀ other ∈ times ++ [refTime], other.isSpecial = true := by
            intro other member
            rcases List.mem_append.mp member with inFront | isLast
            · exact none other inFront
            · rw [List.mem_singleton.mp isLast, special]
          cases window : windowOf times with
          | mk from_ to_ =>
              rw [window] at bounded
              cases bounded with
              | undefined isUndefined _ =>
                  rw [widen, if_pos isUndefined]
                  exact .undefined special all
              | bounds isLeast _ =>
                  rw [ticksOf_of_special none] at isLeast
                  exact absurd isLeast.1 (Set.notMem_empty _)

/-- An undefined time behind a finite one becomes the end of the window, and it stays there. -/
theorem windowOf_broken {times : List PTime} (noInfinity : NoInfinity times)
    (notFirst : ¬UndefinedTimesFirst times) :
    (windowOf times).1.isSpecial = false ∧ (windowOf times).2 = .notADateTime := by
  induction times using List.reverseRecOn with
  | nil => exact absurd List.Pairwise.nil notFirst
  | append_singleton times refTime ih =>
      have noInfinityInFront : NoInfinity times := fun other member =>
        noInfinity other (List.mem_append_left _ member)
      have isLast := noInfinity refTime (List.mem_append_right _ (List.mem_singleton_self _))
      rw [windowOf_concat]
      by_cases front : UndefinedTimesFirst times
      · have bounded := bounded_windowOf front
        have special : refTime.isSpecial = true := by
          by_contra finite
          apply notFirst
          refine List.pairwise_append.mpr ⟨front, List.pairwise_singleton _ _, ?_⟩
          intro earlier _ later isLater _
          rw [List.mem_singleton.mp isLater, Bool.eq_false_of_not_eq_true finite]
        cases window : windowOf times with
        | mk from_ to_ =>
            rw [window] at bounded
            cases bounded with
            | undefined isUndefined none =>
                refine absurd (List.pairwise_append.mpr ⟨front, List.pairwise_singleton _ _, ?_⟩)
                  notFirst
                intro earlier inFront later _ finite
                rw [none earlier inFront] at finite
                cases finite
            | bounds isLeast isGreatest =>
                rw [isLast special]
                exact ⟨rfl, rfl⟩
      · obtain ⟨finite, undefined⟩ := ih noInfinityInFront front
        rw [widen, finite, undefined, if_neg Bool.false_ne_true,
          if_neg (le_undefined isLast).not_gt]
        split
        · next earlier =>
            refine ⟨?_, rfl⟩
            by_contra special
            rw [isLast (Bool.eq_true_of_not_eq_false special)] at earlier
            apply earlier.not_ge
            apply le_undefined
            intro special
            rw [special] at finite
            cases finite
        · exact ⟨finite, undefined⟩

/-- The window is exact when the undefined times are first, and only then. -/
theorem isExact_windowOf_iff {times : List PTime} (noInfinity : NoInfinity times) :
    IsExact (ticksOf times) (foundWindow (windowOf times)) ↔ UndefinedTimesFirst times := by
  constructor
  · intro exact
    by_contra notFirst
    obtain ⟨finite, undefined⟩ := windowOf_broken noInfinity notFirst
    have found : foundWindow (windowOf times) = some ((windowOf times).1, .notADateTime) := by
      rw [foundWindow, finite, if_neg Bool.false_ne_true, ← undefined]
    obtain ⟨least, greatest, -, -, -, isTicks⟩ := exact.bounds _ _ found
    cases isTicks
  · intro first
    have bounded := bounded_windowOf first
    cases window : windowOf times with
    | mk from_ to_ =>
        rw [window] at bounded
        cases bounded with
        | undefined special none =>
            rw [foundWindow, if_pos special, ticksOf_of_special none]
            constructor
            · exact iff_of_false Bool.false_ne_true Set.not_nonempty_empty
            · intro from_ to_ found
              cases found
        | @bounds least greatest isLeast isGreatest =>
            constructor
            · exact iff_of_true rfl ⟨least, isLeast.1⟩
            · intro from_ to_ found
              cases found
              exact ⟨least, greatest, isLeast, isGreatest, rfl, rfl⟩

/-! ## The entries that are looked up -/

variable {reftimes : ProviderRefTimeList}

/-- The times of some entries. -/
def timesOf (entries : List (Bytes × ProviderTimes)) : List PTime :=
  entries.map fun entry => entry.2.refTime

/-- An entry is enabled, and a provider asks for it. -/
def isUsable (pvItemIn : ProviderItem) (entry : Bytes × ProviderTimes) : Bool :=
  !entry.2.disabled && isRequested pvItemIn (ProviderList.decodeItem entry.1)

theorem usable_eq (reftimes : ProviderRefTimeList) (provider : Bytes) :
    reftimes.usable provider =
      reftimes.entries.filter (isUsable (ProviderList.decodeItem provider)) :=
  List.filter_filter

/-- One round of the loop. -/
theorem doGetProviderReftimeFrom_cons (pvItemIn : ProviderItem) (entry : Bytes × ProviderTimes)
    (rest : List (Bytes × ProviderTimes)) (window : PTime × PTime) :
    doGetProviderReftimeFrom pvItemIn (entry :: rest) window =
      if isUsable pvItemIn entry then
        if pvItemIn.placename.isEmpty then
          doGetProviderReftimeFrom pvItemIn rest (widen entry.2.refTime window)
        else widen entry.2.refTime window
      else doGetProviderReftimeFrom pvItemIn rest window := by
  rw [doGetProviderReftimeFrom, isUsable]
  cases entry.2.disabled with
  | true => rfl
  | false => rfl

/-- A provider without a place visits all of its entries. -/
theorem doGetProviderReftimeFrom_provider {pvItemIn : ProviderItem}
    (noPlace : pvItemIn.placename.isEmpty = true) (entries : List (Bytes × ProviderTimes))
    (window : PTime × PTime) :
    doGetProviderReftimeFrom pvItemIn entries window =
      (timesOf (entries.filter (isUsable pvItemIn))).foldl
        (fun window refTime => widen refTime window) window := by
  induction entries generalizing window with
  | nil => rfl
  | cons entry rest ih =>
      rw [doGetProviderReftimeFrom_cons, if_pos noPlace, List.filter_cons]
      split
      · exact ih _
      · exact ih _

/-- A provider with a place visits the first of its entries. -/
theorem doGetProviderReftimeFrom_place {pvItemIn : ProviderItem}
    (place : pvItemIn.placename.isEmpty = false) (entries : List (Bytes × ProviderTimes))
    (window : PTime × PTime) :
    doGetProviderReftimeFrom pvItemIn entries window =
      (timesOf ((entries.filter (isUsable pvItemIn)).take 1)).foldl
        (fun window refTime => widen refTime window) window := by
  induction entries generalizing window with
  | nil => rfl
  | cons entry rest ih =>
      rw [doGetProviderReftimeFrom_cons, place, if_neg Bool.false_ne_true, List.filter_cons]
      split
      · rfl
      · exact ih _

/-- There is one entry for a place. -/
theorem take_usable (wellFormed : reftimes.WellFormed) {provider : Bytes}
    (place : (ProviderList.decodeItem provider).placename.isEmpty = false) :
    (reftimes.usable provider).take 1 = reftimes.usable provider := by
  have keyOf : ∀ entry ∈ reftimes.usable provider,
      entry.1 = (ProviderList.decodeItem provider).providerWithPlacename := by
    intro entry member
    rw [usable_eq, List.mem_filter] at member
    have isUsable := member.2
    rw [ProviderRefTimeList.isUsable, isRequested, place] at isUsable
    simp only [Bool.not_false, Bool.true_and, Bool.false_and, Bool.or_false, Bool.and_eq_true,
      decide_eq_true_iff] at isUsable
    rw [isUsable.2, wellFormed.keys entry member.1]
  have sorted : (reftimes.usable provider).Pairwise fun left right => left.1 < right.1 := by
    rw [usable_eq]
    exact reftimes.sorted.filter _
  apply List.take_of_length_le
  cases found : reftimes.usable provider with
  | nil => exact Nat.zero_le 1
  | cons first others =>
      cases others with
      | nil => exact le_rfl
      | cons second others =>
          rw [found] at keyOf sorted
          have less := List.rel_of_pairwise_cons sorted List.mem_cons_self
          rw [keyOf first List.mem_cons_self,
            keyOf second (List.mem_cons_of_mem first List.mem_cons_self)] at less
          exact absurd less (lt_irrefl _)

/-- A provider visits its entries. -/
theorem doGetProviderReftime_eq (wellFormed : reftimes.WellFormed) (provider : Bytes)
    (window : PTime × PTime) :
    reftimes.doGetProviderReftime provider window =
      (timesOf (reftimes.usable provider)).foldl
        (fun window refTime => widen refTime window) window := by
  cases place : (ProviderList.decodeItem provider).placename.isEmpty with
  | true =>
      rw [doGetProviderReftime, doGetProviderReftimeFrom_provider place, usable_eq]
  | false =>
      rw [doGetProviderReftime, doGetProviderReftimeFrom_place place, ← usable_eq,
        take_usable wellFormed place]

/-- The times that some providers visit. -/
def visitedTimes (reftimes : ProviderRefTimeList) (providers : List Bytes) : List PTime :=
  timesOf (providers.flatMap reftimes.usable)

theorem getProviderListReftime_eq (wellFormed : reftimes.WellFormed) (providers : List Bytes) :
    reftimes.getProviderListReftime providers =
      foundWindow (windowOf (reftimes.visitedTimes providers)) := by
  have visited : providers.foldl
      (fun times provider => reftimes.doGetProviderReftime provider times) default =
        windowOf (reftimes.visitedTimes providers) := by
    rw [windowOf, visitedTimes, timesOf, List.map_flatMap, List.foldl_flatMap]
    congr 1
    funext window provider
    exact doGetProviderReftime_eq wellFormed provider window
  rw [getProviderListReftime, visited]
  rfl

theorem ticksOf_visitedTimes (providers : List Bytes) :
    ticksOf (reftimes.visitedTimes providers) = reftimes.usableTimes providers := by
  ext microseconds
  rw [ticksOf, usableTimes, Set.mem_ofPred_eq, Set.mem_ofPred_eq, visitedTimes, timesOf,
    List.mem_map]
  constructor
  · rintro ⟨entry, member, isTime⟩
    obtain ⟨provider, isListed, isUsable⟩ := List.mem_flatMap.mp member
    exact ⟨provider, isListed, entry, isUsable, isTime⟩
  · rintro ⟨provider, isListed, entry, isUsable, isTime⟩
    exact ⟨entry, List.mem_flatMap.mpr ⟨provider, isListed, isUsable⟩, isTime⟩

theorem noInfinity_visitedTimes (wellFormed : reftimes.WellFormed) (providers : List Bytes) :
    NoInfinity (reftimes.visitedTimes providers) := by
  intro refTime member
  obtain ⟨entry, isVisited, rfl⟩ := List.mem_map.mp member
  obtain ⟨provider, -, isUsable⟩ := List.mem_flatMap.mp isVisited
  rw [usable_eq] at isUsable
  exact wellFormed.times entry (List.mem_filter.mp isUsable).1

/-- The window of some providers, or of one, is exact when the entries without a reference time are
visited first, and only then. -/
theorem reftimeWindow_iff (wellFormed : reftimes.WellFormed) :
    (∀ provider, IsExact (reftimes.usableTimes [provider])
      (reftimes.getProviderReftime provider) ↔ reftimes.UndefinedFirst [provider]) ∧
      ∀ providers, IsExact (reftimes.usableTimes providers)
        (reftimes.getProviderListReftime providers) ↔ reftimes.UndefinedFirst providers := by
  have listed (providers : List Bytes) : IsExact (reftimes.usableTimes providers)
      (reftimes.getProviderListReftime providers) ↔ reftimes.UndefinedFirst providers := by
    rw [getProviderListReftime_eq wellFormed, ← ticksOf_visitedTimes,
      isExact_windowOf_iff (noInfinity_visitedTimes wellFormed providers)]
    exact List.pairwise_map
  exact ⟨fun provider => listed [provider], listed⟩

/-- Two places of a provider, the second one without a reference time. -/
def unknownPlace : ProviderRefTimeList :=
  .ofList
    [(Bytes.str "met.no [a]", ProviderTimes.create PTime.epoch default),
      (Bytes.str "met.no [b]", ProviderTimes.create .notADateTime default)]

theorem unknownPlace_wellFormed : unknownPlace.WellFormed where
  keys := by decide +kernel
  times := by decide +kernel

/-- The windows of the two places. -/
theorem reftimeWindow_unknownPlace :
    unknownPlace.WellFormed ∧
      (IsExact (unknownPlace.usableTimes [Bytes.str "met.no [a]"])
        (unknownPlace.getProviderReftime (Bytes.str "met.no [a]")) ↔
          unknownPlace.UndefinedFirst [Bytes.str "met.no [a]"]) :=
  ⟨unknownPlace_wellFormed,
    (reftimeWindow_iff unknownPlace_wellFormed).1 (Bytes.str "met.no [a]")⟩

/-- The window of the provider ends at no time. -/
theorem not_isExact_unknownPlace :
    unknownPlace.WellFormed ∧
      unknownPlace.getProviderReftime (Bytes.str "met.no") = some (PTime.epoch, .notADateTime) ∧
        ¬IsExact (unknownPlace.usableTimes [Bytes.str "met.no"])
          (unknownPlace.getProviderReftime (Bytes.str "met.no")) := by
  have window : unknownPlace.getProviderReftime (Bytes.str "met.no") =
      some (PTime.epoch, .notADateTime) := by
    decide +kernel
  refine ⟨unknownPlace_wellFormed, window, ?_⟩
  intro exact
  obtain ⟨least, greatest, -, -, -, isTicks⟩ := exact.bounds _ _ window
  cases isTicks

end ProviderRefTimeList

end Wdb2ts
