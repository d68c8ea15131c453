import Mathlib.Tactic
import Mathlib.Data.List.Lex

/-!
# Ordered maps as sorted association lists

An ordered map is the list of its entries in strictly ascending key order, and
carries the proof of that order.  Iteration over the map is iteration over the
list.  Lookups characterize a map completely, so every operation is specified by
what it does to `find?`.
-/

universe u v w

/-- A map whose entries are kept in strictly ascending key order. -/
structure SortedMap (κ : Type u) (β : Type v) [LinearOrder κ] where
  entries : List (κ × β)
  sorted : entries.Pairwise fun left right => left.1 < right.1

namespace SortedMap

variable {κ : Type u} {β : Type v} {γ : Type w} [LinearOrder κ]

/-! ## Entry lists -/

/-- Rewrite the value of one key of a sorted entry list.  The old value, if any, is
passed to `image`, and an absent key is inserted at its place. -/
def upsertEntries (key : κ) (image : Option β → β) : List (κ × β) → List (κ × β)
  | [] => [(key, image none)]
  | (other, value) :: rest =>
      if key < other then (key, image none) :: (other, value) :: rest
      else if key = other then (key, image (some value)) :: rest
      else (other, value) :: upsertEntries key image rest

private theorem lookup_cons_ite (key other : κ) (value : β) (rest : List (κ × β)) :
    ((other, value) :: rest).lookup key =
      if key = other then some value else rest.lookup key := by
  by_cases equal : key = other
  · simp [equal]
  · simp [List.lookup_cons, beq_eq_false_iff_ne.mpr equal, equal]

/-- In a sorted list a key occurs once, so membership determines the lookup. -/
theorem lookup_of_mem {key : κ} {value : β} {entries : List (κ × β)}
    (sorted : entries.Pairwise fun left right => left.1 < right.1)
    (member : (key, value) ∈ entries) : entries.lookup key = some value := by
  induction entries with
  | nil => simp at member
  | cons entry rest ih =>
      obtain ⟨other, head⟩ := entry
      rw [List.pairwise_cons] at sorted
      rw [lookup_cons_ite]
      rcases List.mem_cons.mp member with equal | tail
      · cases equal
        simp
      · have different : key ≠ other := (sorted.1 _ tail).ne'
        simpa [different] using ih sorted.2 tail

theorem mem_upsertEntries {key : κ} {image : Option β → β} {entries : List (κ × β)}
    {entry : κ × β} (member : entry ∈ upsertEntries key image entries) :
    entry.1 = key ∨ entry ∈ entries := by
  induction entries with
  | nil =>
      simp only [upsertEntries, List.mem_singleton] at member
      exact Or.inl (by rw [member])
  | cons head rest ih =>
      obtain ⟨other, value⟩ := head
      simp only [upsertEntries] at member
      split at member
      · rcases List.mem_cons.mp member with equal | tail
        · exact Or.inl (by rw [equal])
        · exact Or.inr tail
      · split at member
        · rcases List.mem_cons.mp member with equal | tail
          · exact Or.inl (by rw [equal])
          · exact Or.inr (List.mem_cons_of_mem _ tail)
        · rcases List.mem_cons.mp member with equal | tail
          · exact Or.inr (by simp [equal])
          · exact (ih tail).imp_right (List.mem_cons_of_mem _)

theorem upsertEntries_sorted {key : κ} {image : Option β → β} {entries : List (κ × β)}
    (sorted : entries.Pairwise fun left right => left.1 < right.1) :
    (upsertEntries key image entries).Pairwise fun left right => left.1 < right.1 := by
  induction entries with
  | nil => simp [upsertEntries]
  | cons head rest ih =>
      obtain ⟨other, value⟩ := head
      have headBound := (List.pairwise_cons.mp sorted).1
      have tailSorted := (List.pairwise_cons.mp sorted).2
      simp only [upsertEntries]
      split
      next before =>
        refine List.pairwise_cons.mpr ⟨?_, sorted⟩
        intro entry member
        rcases List.mem_cons.mp member with equal | tail
        · simpa [equal] using before
        · exact before.trans (headBound entry tail)
      next notBefore =>
        split
        next equal =>
          subst equal
          exact List.pairwise_cons.mpr ⟨headBound, tailSorted⟩
        next different =>
          refine List.pairwise_cons.mpr ⟨?_, ih tailSorted⟩
          intro entry member
          rcases mem_upsertEntries member with equal | old
          · rw [equal]
            exact lt_of_le_of_ne (not_lt.mp notBefore) (Ne.symm different)
          · exact headBound entry old

theorem lookup_upsertEntries {key other : κ} {image : Option β → β}
    {entries : List (κ × β)}
    (sorted : entries.Pairwise fun left right => left.1 < right.1) :
    (upsertEntries key image entries).lookup other =
      if other = key then some (image (entries.lookup key)) else entries.lookup other := by
  induction entries with
  | nil => simp [upsertEntries, lookup_cons_ite]
  | cons head rest ih =>
      obtain ⟨first, value⟩ := head
      have headBound := (List.pairwise_cons.mp sorted).1
      have tailSorted := (List.pairwise_cons.mp sorted).2
      simp only [upsertEntries]
      split
      next before =>
        have absent : rest.lookup key = none :=
          List.lookup_eq_none_iff.mpr fun entry member =>
            bne_iff_ne.mpr (before.trans (headBound entry member)).ne
        simp [lookup_cons_ite, before.ne, absent]
      next notBefore =>
        split
        next equal =>
          subst equal
          by_cases same : other = key <;> simp [lookup_cons_ite, same]
        next different =>
          have tail := ih tailSorted
          by_cases same : other = first
          · subst same
            simp [Ne.symm different]
          · simp [lookup_cons_ite, same, tail, different]

/-! ## Operations -/

/-- The map without entries. -/
def empty : SortedMap κ β := ⟨[], List.Pairwise.nil⟩

instance : EmptyCollection (SortedMap κ β) := ⟨empty⟩

instance : Inhabited (SortedMap κ β) := ⟨∅⟩

/-- Value stored under a key. -/
def find? (map : SortedMap κ β) (key : κ) : Option β := map.entries.lookup key

/-- Does the map hold the key? -/
def contains (map : SortedMap κ β) (key : κ) : Bool := (map.find? key).isSome

/-- Keys in iteration order. -/
def keys (map : SortedMap κ β) : List κ := map.entries.map Prod.fst

/-- Number of entries. -/
def size (map : SortedMap κ β) : Nat := map.entries.length

/-- Rewrite the value of one key, inserting the key when it is absent. -/
def upsert (map : SortedMap κ β) (key : κ) (image : Option β → β) : SortedMap κ β :=
  ⟨upsertEntries key image map.entries, upsertEntries_sorted map.sorted⟩

/-- Store a value under a key, replacing an older one. -/
def insert (map : SortedMap κ β) (key : κ) (value : β) : SortedMap κ β :=
  map.upsert key fun _ => value

/-- Keep the keys that satisfy a test. -/
def restrict (map : SortedMap κ β) (keep : κ → Bool) : SortedMap κ β :=
  ⟨map.entries.filter fun entry => keep entry.1, map.sorted.filter _⟩

/-- Apply a function to every entry. -/
def mapEntries (map : SortedMap κ β) (image : κ → β → γ) : SortedMap κ γ :=
  ⟨map.entries.map fun entry => (entry.1, image entry.1 entry.2), by
    rw [List.pairwise_map]
    exact map.sorted⟩

/-- Apply a function to every value. -/
def mapValues (map : SortedMap κ β) (image : β → γ) : SortedMap κ γ :=
  map.mapEntries fun _ => image

/-- Remove one key. -/
def erase (map : SortedMap κ β) (key : κ) : SortedMap κ β :=
  map.restrict fun other => decide (other ≠ key)

/-- Insert the pairs of a list one after the other. -/
def ofList (pairs : List (κ × β)) : SortedMap κ β :=
  pairs.foldl (fun map pair => map.insert pair.1 pair.2) ∅

@[simp] theorem find?_empty (key : κ) : (∅ : SortedMap κ β).find? key = none := rfl

@[simp] theorem entries_empty : (∅ : SortedMap κ β).entries = [] := rfl

theorem mem_entries_iff {map : SortedMap κ β} {key : κ} {value : β} :
    (key, value) ∈ map.entries ↔ map.find? key = some value := by
  constructor
  · exact lookup_of_mem map.sorted
  · intro found
    rcases List.lookup_eq_some_iff.mp found with ⟨before, after, split, _⟩
    simp [split]

theorem find?_eq_none_iff {map : SortedMap κ β} {key : κ} :
    map.find? key = none ↔ ∀ entry ∈ map.entries, entry.1 ≠ key := by
  simp only [find?, List.lookup_eq_none_iff, bne_iff_ne, ne_comm]

theorem mem_keys_iff {map : SortedMap κ β} {key : κ} :
    key ∈ map.keys ↔ ∃ value, map.find? key = some value := by
  simp only [keys, List.mem_map, Prod.exists, exists_and_right, exists_eq_right]
  exact exists_congr fun value => mem_entries_iff

/-- Rewriting one key changes exactly one lookup. -/
theorem find?_upsert (map : SortedMap κ β) (key other : κ) (image : Option β → β) :
    (map.upsert key image).find? other =
      if other = key then some (image (map.find? key)) else map.find? other :=
  lookup_upsertEntries map.sorted

@[simp] theorem find?_upsert_self (map : SortedMap κ β) (key : κ)
    (image : Option β → β) :
    (map.upsert key image).find? key = some (image (map.find? key)) := by
  simp [find?_upsert]

theorem find?_insert (map : SortedMap κ β) (key other : κ) (value : β) :
    (map.insert key value).find? other =
      if other = key then some value else map.find? other :=
  map.find?_upsert key other _

@[simp] theorem find?_insert_self (map : SortedMap κ β) (key : κ) (value : β) :
    (map.insert key value).find? key = some value := by
  simp [find?_insert]

theorem find?_insert_of_ne (map : SortedMap κ β) {key other : κ}
    (different : other ≠ key) (value : β) :
    (map.insert key value).find? other = map.find? other := by
  simp [find?_insert, different]

theorem find?_restrict (map : SortedMap κ β) (keep : κ → Bool) (key : κ) :
    (map.restrict keep).find? key = if keep key then map.find? key else none := by
  apply Option.ext
  intro value
  rw [← mem_entries_iff]
  cases kept : keep key with
  | true => simp [restrict, kept, mem_entries_iff]
  | false => simp [restrict, kept]

theorem find?_mapEntries (map : SortedMap κ β) (image : κ → β → γ) (key : κ) :
    (map.mapEntries image).find? key = (map.find? key).map (image key) := by
  apply Option.ext
  intro value
  rw [← mem_entries_iff, Option.map_eq_some_iff]
  constructor
  · intro member
    rcases List.mem_map.mp member with ⟨entry, stored, equal⟩
    cases equal
    exact ⟨entry.2, mem_entries_iff.mp stored, rfl⟩
  · rintro ⟨old, found, rfl⟩
    exact List.mem_map.mpr ⟨(key, old), mem_entries_iff.mpr found, rfl⟩

theorem find?_mapValues (map : SortedMap κ β) (image : β → γ) (key : κ) :
    (map.mapValues image).find? key = (map.find? key).map image :=
  map.find?_mapEntries _ key

theorem find?_erase (map : SortedMap κ β) (key other : κ) :
    (map.erase key).find? other = if other = key then none else map.find? other := by
  simp [erase, find?_restrict]

theorem length_upsertEntries_le (key : κ) (image : Option β → β) (entries : List (κ × β)) :
    (upsertEntries key image entries).length ≤ entries.length + 1 := by
  induction entries with
  | nil => exact le_rfl
  | cons head rest ih =>
      simp only [upsertEntries]
      split
      · exact le_rfl
      · split
        · exact Nat.le_succ _
        · exact Nat.succ_le_succ ih

theorem size_insert_le (map : SortedMap κ β) (key : κ) (value : β) :
    (map.insert key value).size ≤ map.size + 1 :=
  length_upsertEntries_le key _ map.entries

theorem size_erase_le (map : SortedMap κ β) (key : κ) : (map.erase key).size ≤ map.size :=
  List.length_filter_le _ _

/-- Two maps with equal entries are equal. -/
theorem ext_entries {left right : SortedMap κ β} (equal : left.entries = right.entries) :
    left = right := by
  cases left
  cases right
  cases equal
  rfl

/-- Two maps with equal lookups are equal. -/
theorem ext_find? {left right : SortedMap κ β}
    (equal : ∀ key, left.find? key = right.find? key) : left = right := by
  have member : ∀ entry, entry ∈ left.entries ↔ entry ∈ right.entries := by
    rintro ⟨key, value⟩
    rw [mem_entries_iff, mem_entries_iff, equal]
  have nodup : ∀ map : SortedMap κ β, map.entries.Nodup := fun map =>
    map.sorted.imp fun less same => less.ne (by rw [same])
  have perm : left.entries.Perm right.entries :=
    (List.perm_ext_iff_of_nodup (nodup left) (nodup right)).mpr member
  have entriesEqual : left.entries = right.entries :=
    perm.eq_of_pairwise (fun _ _ _ _ less greater => absurd less greater.not_gt)
      left.sorted right.sorted
  exact ext_entries entriesEqual

/-- A second rewriting of a key finds what the first one left there. -/
theorem upsert_upsert (map : SortedMap κ β) (key : κ) (first second : Option β → β) :
    (map.upsert key first).upsert key second =
      map.upsert key fun old => second (some (first old)) := by
  apply ext_find?
  intro other
  simp only [find?_upsert]
  split
  · simp
  · rfl

/-! ## Folding over entries -/

section Fold

variable {σ : Type*} {ω : Type*} {ι : Type*} (observe : σ → ω) (image : ω → β → ω)
  {step : σ → ι × β → σ}

/-- Steps that leave an observation alone unless they are about one key. -/
theorem foldl_unobserved {key : ι}
    (frame : ∀ state entry, key ≠ entry.1 → observe (step state entry) = observe state)
    {entries : List (ι × β)} (absent : ∀ entry ∈ entries, key ≠ entry.1)
    (state : σ) : observe (entries.foldl step state) = observe state := by
  induction entries generalizing state with
  | nil => rfl
  | cons head rest ih =>
      have tail : ∀ entry ∈ rest, key ≠ entry.1 := fun entry member =>
        absent entry (List.mem_cons_of_mem _ member)
      rw [List.foldl_cons, ih tail, frame state head (absent head List.mem_cons_self)]

/-- When the keys are distinct, the step of the key happens once. -/
theorem foldl_observed {key : ι}
    (frame : ∀ state entry, key ≠ entry.1 → observe (step state entry) = observe state)
    (effect : ∀ state value, observe (step state (key, value)) = image (observe state) value)
    {value : β} {entries : List (ι × β)}
    (distinct : entries.Pairwise fun left right => left.1 ≠ right.1)
    (member : (key, value) ∈ entries) (state : σ) :
    observe (entries.foldl step state) = image (observe state) value := by
  induction entries generalizing state with
  | nil => simp at member
  | cons head rest ih =>
      rw [List.pairwise_cons] at distinct
      rw [List.foldl_cons]
      rcases List.mem_cons.mp member with equal | tail
      · cases equal
        rw [foldl_unobserved observe frame distinct.1]
        exact effect state value
      · have different : key ≠ head.1 := (distinct.1 _ tail).symm
        rw [ih distinct.2 tail, frame state head different]

/-- A fold over a map, seen at one key. -/
theorem foldl_entries (observe : σ → ω) (image : ω → β → ω) {step : σ → κ × β → σ} {key : κ}
    (frame : ∀ state entry, key ≠ entry.1 → observe (step state entry) = observe state)
    (effect : ∀ state value, observe (step state (key, value)) = image (observe state) value)
    (map : SortedMap κ β) (state : σ) :
    observe (map.entries.foldl step state) =
      (map.find? key).elim (observe state) (image (observe state)) := by
  cases found : map.find? key with
  | none =>
      apply foldl_unobserved observe frame
      intro entry member
      exact (find?_eq_none_iff.mp found entry member).symm
  | some value =>
      have distinct : map.entries.Pairwise fun left right => left.1 ≠ right.1 :=
        map.sorted.imp ne_of_lt
      exact foldl_observed observe image frame effect distinct (mem_entries_iff.mpr found) state

/-- Inserting the entries of a map again gives the map. -/
theorem ofList_entries (map : SortedMap κ β) : ofList map.entries = map := by
  apply ext_find?
  intro key
  have folded := foldl_entries (fun built => find? built key) (fun _ value => some value)
    (fun built entry different => find?_insert_of_ne built different entry.2)
    (fun built value => find?_insert_self built key value) map ∅
  rw [ofList, folded]
  cases map.find? key with
  | none => rfl
  | some value => rfl

end Fold

instance [DecidableEq β] : DecidableEq (SortedMap κ β) := fun left right =>
  decidable_of_iff (left.entries = right.entries) <| by
    constructor
    · intro equal
      cases left
      cases right
      cases equal
      rfl
    · exact fun equal => congrArg entries equal

end SortedMap
