import Wdb2ts.Lib.SortedMap

/-!
# Answers of an ordered map

A map answers for a key with its value, with the value of the key that stands in for it, or with
a default value.  Where nothing stands in for a stand-in, the map can store an answer under its
key, and it answers for every key as before.
-/

universe u v

namespace SortedMap

variable {κ : Type u} {β : Type v} [LinearOrder κ]

/-- The value of a key, of its stand-in, or the default value. -/
def answer (standIn : κ → κ) (default_ : β) (map : SortedMap κ β) (key : κ) : β :=
  ((map.find? key).or (map.find? (standIn key))).getD default_

variable {standIn : κ → κ} {default_ : β} {map : SortedMap κ β} {key : κ} {value : β}

theorem answer_of_find? (found : map.find? key = some value) :
    map.answer standIn default_ key = value := by
  rw [answer, found, Option.some_or, Option.getD_some]

theorem answer_of_standIn (absent : map.find? key = none)
    (found : map.find? (standIn key) = some value) :
    map.answer standIn default_ key = value := by
  rw [answer, absent, found, Option.none_or, Option.getD_some]

theorem answer_of_absent (absent : map.find? key = none)
    (standInAbsent : map.find? (standIn key) = none) :
    map.answer standIn default_ key = default_ := by
  rw [answer, absent, standInAbsent, Option.none_or, Option.getD_none]

/-- A stand-in is answered for with its own value or the default value. -/
theorem answer_standIn (idempotent : ∀ key, standIn (standIn key) = standIn key)
    (map : SortedMap κ β) (key : κ) :
    map.answer standIn default_ (standIn key) = (map.find? (standIn key)).getD default_ := by
  rw [answer, idempotent, Option.or_self]

/-- An answer that is stored changes no answer. -/
theorem answer_insert_answer (idempotent : ∀ key, standIn (standIn key) = standIn key)
    (map : SortedMap κ β) (key other : κ) :
    (map.insert key (map.answer standIn default_ key)).answer standIn default_ other =
      map.answer standIn default_ other := by
  by_cases same : other = key
  · rw [same, answer_of_find? (map.find?_insert_self key _)]
  · rw [answer, map.find?_insert_of_ne same]
    cases found : map.find? other with
    | some value => rw [Option.some_or, Option.getD_some, answer_of_find? found]
    | none =>
        by_cases isStandIn : standIn other = key
        · rw [isStandIn, find?_insert_self, Option.none_or, Option.getD_some, ← isStandIn,
            answer_standIn idempotent, answer, found, Option.none_or]
        · rw [map.find?_insert_of_ne isStandIn, answer, found]

/-- The value of a key after several insertions is that of its last one. -/
theorem find?_foldl_insert [BEq κ] [LawfulBEq κ] (map : SortedMap κ β) (pairs : List (κ × β))
    (key : κ) :
    (pairs.foldl (fun map pair => map.insert pair.1 pair.2) map).find? key =
      (pairs.reverse.lookup key).or (map.find? key) := by
  induction pairs generalizing map with
  | nil => rw [List.foldl_nil, List.reverse_nil, List.lookup_nil, Option.none_or]
  | cons pair rest ih =>
      rcases pair with ⟨inserted, value⟩
      rw [List.foldl_cons, ih, List.reverse_cons, List.lookup_append, find?_insert]
      cases rest.reverse.lookup key with
      | some later => rw [Option.some_or, Option.some_or, Option.some_or]
      | none =>
          by_cases same : key = inserted
          · simp [same]
          · simp [same, List.lookup_cons, beq_eq_false_iff_ne.mpr same]

end SortedMap
