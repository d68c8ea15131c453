import Mathlib.Tactic
import Mathlib.Data.List.TakeWhile

/-!
# Linked lists with iterators

An iterator of a linked list denotes a node or the end.  It stays valid while other nodes are
inserted, changed and erased, and it becomes invalid when its own node is erased.  The
operations that need a node fail on the end and on an invalid iterator.
-/

universe u

/-- What goes wrong in code that walks through a list. -/
inductive Fault where
  /-- An iterator denotes no node where one is needed. -/
  | iterator
  /-- A loop does not end within its rounds. -/
  | endless
  deriving DecidableEq

/-- A linked list: the nodes in their order, each with its address. -/
structure LinkedList (α : Type u) where
  nodes : List (ℕ × α)
  fresh : ℕ
  nodup : (nodes.map Prod.fst).Nodup
  lt_fresh : ∀ node ∈ nodes, node.1 < fresh

namespace LinkedList

variable {α : Type u}

/-- The address of a node, or the end. -/
abbrev Iterator := Option ℕ

/-- The values in their order. -/
def values (list : LinkedList α) : List α := list.nodes.map Prod.snd

/-- The list of the given values. -/
def ofList (values : List α) : LinkedList α where
  nodes := (List.range values.length).zip values
  fresh := values.length
  nodup := by
    rw [List.map_fst_zip (by rw [List.length_range])]
    exact List.nodup_range
  lt_fresh node member := List.mem_range.mp (List.of_mem_zip member).1

/-- The iterator of the first node. -/
def first (list : LinkedList α) : Iterator := list.nodes.head?.map Prod.fst

/-- The nodes from an iterator on. -/
def nodesFrom (list : LinkedList α) : Iterator → List (ℕ × α)
  | none => []
  | some address => list.nodes.dropWhile fun node => node.1 != address

/-- The iterator after the given one. -/
def next (list : LinkedList α) (iterator : Iterator) : Except Fault Iterator :=
  match list.nodesFrom iterator with
  | [] => .error .iterator
  | _ :: rest => .ok (rest.head?.map Prod.fst)

/-- The value at an iterator. -/
def get (list : LinkedList α) (iterator : Iterator) : Except Fault α :=
  match list.nodesFrom iterator with
  | [] => .error .iterator
  | node :: _ => .ok node.2

/-- How often the first iterator is incremented to get the node of the last one. -/
def distance (list : LinkedList α) (start last : Iterator) : Except Fault ℕ :=
  match (list.nodesFrom start).findIdx? fun node => some node.1 == last with
  | none => .error .iterator
  | some count => .ok count

/-- Does the iterator denote a node? -/
def denotes (list : LinkedList α) (iterator : Iterator) : Bool :=
  list.nodes.any fun node => some node.1 == iterator

/-- The list with another value at an iterator. -/
def modify (list : LinkedList α) (iterator : Iterator) (change : α → α) :
    Except Fault (LinkedList α) :=
  if list.denotes iterator then
    .ok
      { nodes := list.nodes.map fun node =>
          (node.1, if some node.1 = iterator then change node.2 else node.2)
        fresh := list.fresh
        nodup := by
          rw [List.map_map]
          exact list.nodup
        lt_fresh := by
          intro node member
          rcases List.mem_map.mp member with ⟨old, isOld, rfl⟩
          exact list.lt_fresh old isOld }
  else .error .iterator

/-- The list without the node of an iterator. -/
def erase (list : LinkedList α) (iterator : Iterator) : Except Fault (LinkedList α) :=
  if list.denotes iterator then
    .ok
      { nodes := list.nodes.filter fun node => some node.1 != iterator
        fresh := list.fresh
        nodup := list.nodup.sublist (List.filter_sublist.map Prod.fst)
        lt_fresh := fun node member => list.lt_fresh node (List.mem_of_mem_filter member) }
  else .error .iterator

/-- The list with a new node at its end, and the iterator of that node. -/
def pushBack (list : LinkedList α) (value : α) : LinkedList α × Iterator :=
  ({ nodes := list.nodes ++ [(list.fresh, value)]
     fresh := list.fresh + 1
     nodup := by
       rw [List.map_append, List.nodup_append]
       refine ⟨list.nodup, List.nodup_singleton _, ?_⟩
       intro address member other isLast
       rcases List.mem_map.mp member with ⟨node, isNode, rfl⟩
       rw [List.map_singleton, List.mem_singleton] at isLast
       rw [isLast]
       exact (list.lt_fresh node isNode).ne
     lt_fresh := by
       intro node member
       rcases List.mem_append.mp member with isNode | isLast
       · exact Nat.lt_succ_of_lt (list.lt_fresh node isNode)
       · rw [List.mem_singleton.mp isLast]
         exact Nat.lt_succ_self _ }, some list.fresh)

@[simp] theorem values_ofList (values : List α) : (ofList values).values = values :=
  List.map_snd_zip (by rw [List.length_range])

@[simp] theorem nodes_pushBack (list : LinkedList α) (value : α) :
    (list.pushBack value).1.nodes = list.nodes ++ [(list.fresh, value)] := rfl

/-! ## At a node -/

section AtNode

variable {list : LinkedList α} {before after : List (ℕ × α)} {address : ℕ} {value : α}

theorem ne_of_mem_before (split : list.nodes = before ++ (address, value) :: after)
    {node : ℕ × α} (member : node ∈ before) : node.1 ≠ address := by
  have nodup := list.nodup
  rw [split, List.map_append, List.map_cons, List.nodup_append] at nodup
  exact nodup.2.2 node.1 (List.mem_map_of_mem member) address List.mem_cons_self

theorem ne_of_mem_after (split : list.nodes = before ++ (address, value) :: after)
    {node : ℕ × α} (member : node ∈ after) : node.1 ≠ address := by
  have nodup := list.nodup
  rw [split, List.map_append, List.map_cons, List.nodup_append] at nodup
  intro equal
  apply (List.nodup_cons.mp nodup.2.1).1
  exact List.mem_map.mpr ⟨node, member, equal⟩

theorem nodesFrom_eq (split : list.nodes = before ++ (address, value) :: after) :
    list.nodesFrom (some address) = (address, value) :: after := by
  simp only [nodesFrom]
  rw [split, List.dropWhile_append_of_pos]
  · rw [List.dropWhile_cons_of_neg]
    simp
  · intro node member
    exact bne_iff_ne.mpr (ne_of_mem_before split member)

theorem next_eq (split : list.nodes = before ++ (address, value) :: after) :
    list.next (some address) = .ok (after.head?.map Prod.fst) := by
  rw [next, nodesFrom_eq split]

theorem get_eq (split : list.nodes = before ++ (address, value) :: after) :
    list.get (some address) = .ok value := by
  rw [get, nodesFrom_eq split]

theorem denotes_eq (split : list.nodes = before ++ (address, value) :: after) :
    list.denotes (some address) = true := by
  simp [denotes, split]

theorem modify_eq (split : list.nodes = before ++ (address, value) :: after) (change : α → α) :
    ∃ changed, list.modify (some address) change = .ok changed ∧
      changed.nodes = before ++ (address, change value) :: after := by
  have keeps (nodes : List (ℕ × α)) (others : ∀ node ∈ nodes, node.1 ≠ address) :
      (nodes.map fun node =>
        (node.1, if some node.1 = some address then change node.2 else node.2)) = nodes := by
    conv_rhs => rw [← List.map_id nodes]
    apply List.map_congr_left
    intro node member
    have other : ¬some node.1 = some address := by simpa using others node member
    simp only [if_neg other, id_eq]
  have nodes : (list.nodes.map fun node =>
      (node.1, if some node.1 = some address then change node.2 else node.2)) =
        before ++ (address, change value) :: after := by
    rw [split, List.map_append, List.map_cons, keeps before fun node => ne_of_mem_before split,
      keeps after fun node => ne_of_mem_after split, if_pos rfl]
  exact ⟨_, if_pos (denotes_eq split), nodes⟩

theorem erase_eq (split : list.nodes = before ++ (address, value) :: after) :
    ∃ rest, list.erase (some address) = .ok rest ∧ rest.nodes = before ++ after := by
  have keeps (nodes : List (ℕ × α)) (others : ∀ node ∈ nodes, node.1 ≠ address) :
      (nodes.filter fun node => some node.1 != some address) = nodes := by
    apply List.filter_eq_self.mpr
    intro node member
    simpa using others node member
  have nodes : (list.nodes.filter fun node => some node.1 != some address) =
      before ++ after := by
    rw [split, List.filter_append, keeps before fun node => ne_of_mem_before split,
      List.filter_cons_of_neg (by simp), keeps after fun node => ne_of_mem_after split]
  exact ⟨_, if_pos (denotes_eq split), nodes⟩

/-- An iterator whose node is erased cannot be incremented. -/
theorem next_of_erased (absent : ∀ node ∈ list.nodes, node.1 ≠ address) :
    list.next (some address) = .error .iterator := by
  have none_left : list.nodesFrom (some address) = [] := by
    rw [nodesFrom, List.dropWhile_eq_nil_iff]
    intro node member
    exact bne_iff_ne.mpr (absent node member)
  rw [next, none_left]

/-- A loop that erases the node of its iterator cannot go on from there. -/
theorem exists_erase_next (split : list.nodes = before ++ (address, value) :: after) :
    ∃ rest, list.erase (some address) = .ok rest ∧
      rest.next (some address) = .error .iterator := by
  rcases erase_eq split with ⟨rest, isErased, nodes⟩
  refine ⟨rest, isErased, next_of_erased ?_⟩
  intro node member
  rw [nodes] at member
  rcases List.mem_append.mp member with isBefore | isAfter
  · exact ne_of_mem_before split isBefore
  · exact ne_of_mem_after split isAfter

/-- The distance to the last node of a segment. -/
theorem distance_eq {middle : List (ℕ × α)} {last : ℕ} {lastValue : α}
    (split : list.nodes = before ++ (address, value) :: (middle ++ (last, lastValue) :: after)) :
    list.distance (some address) (some last) = .ok (middle.length + 1) := by
  have otherSplit : list.nodes = (before ++ (address, value) :: middle) ++
      (last, lastValue) :: after := by
    rw [split, List.append_assoc, List.cons_append]
  have notBefore : ((address, value) :: middle).findIdx?
      (fun node => some node.1 == some last) = none := by
    rw [List.findIdx?_eq_none_iff]
    intro node member
    have other := ne_of_mem_before otherSplit (List.mem_append_right before member)
    simpa using other
  have found : ((address, value) :: (middle ++ (last, lastValue) :: after)).findIdx?
      (fun node => some node.1 == some last) = some (middle.length + 1) := by
    rw [← List.cons_append, List.findIdx?_append, notBefore]
    simp [List.findIdx?_cons]
  rw [distance, nodesFrom_eq split, found]

theorem distance_self (split : list.nodes = before ++ (address, value) :: after) :
    list.distance (some address) (some address) = .ok 0 := by
  rw [distance, nodesFrom_eq split]
  simp [List.findIdx?_cons]

end AtNode

end LinkedList
