import Wdb2ts.ProviderList
import Wdb2ts.PTime
import Wdb2ts.Lib.AdjacentRuns
import Wdb2ts.Lib.LinkedList

/-!
# Compacting the break times

The break times of a forecast are a linked list of intervals, each with the provider of its
data.  `compactBreakTimes` is to join subsequent intervals whose providers differ in the place
only.  It erases the interval it is about to go on from, and it never closes the last run.
-/

namespace Wdb2ts

namespace EncodeLocationForecast4

/-- `EncodeLocationForecast4::BreakTimes`. -/
structure BreakTimes where
  provider : Bytes
  from_ : PTime
  to_ : PTime
  prevTo : PTime
  deriving DecidableEq

namespace BreakTimes

/-- The provider without its place. -/
def name (breakTimes : BreakTimes) : Bytes :=
  (ProviderList.decodeItem breakTimes.provider).provider

end BreakTimes

open BreakTimes

/-- The list of the break times. -/
abbrev BreakTimeList := LinkedList BreakTimes

/-! ## The code -/

/-- The loop of `compactBreakTimes` that erases the nodes before the last one of a run. -/
def eraseUntil (itPrev : LinkedList.Iterator) :
    ℕ → BreakTimeList → LinkedList.Iterator → Except Fault BreakTimeList
  | 0, _, _ => .error .endless
  | rounds + 1, breakTimes, itFirst =>
      if itFirst = itPrev then .ok breakTimes
      else do
        let breakTimes ← breakTimes.erase itFirst
        let itFirst ← breakTimes.next itFirst
        eraseUntil itPrev rounds breakTimes itFirst

/-- The branch of `compactBreakTimes` for another provider: join the run from one iterator to
another, if it has more than one node. -/
def closeRun (breakTimes : BreakTimeList) (itFirst itPrev : LinkedList.Iterator) :
    Except Fault BreakTimeList := do
  if 0 < (← breakTimes.distance itFirst itPrev) then
    let last ← breakTimes.get itPrev
    let breakTimes ← breakTimes.modify itFirst fun first => { first with to_ := last.to_ }
    let itFirst ← breakTimes.next itFirst
    let breakTimes ← eraseUntil itPrev (breakTimes.nodes.length + 1) breakTimes itFirst
    breakTimes.erase itPrev
  else .ok breakTimes

/-- The loop of `compactBreakTimes`, with the iterators of the next node and of the first and
the last node of the run, and the name of the run. -/
def compactLoop : ℕ → BreakTimeList → LinkedList.Iterator → LinkedList.Iterator →
    LinkedList.Iterator → Bytes → Except Fault BreakTimeList
  | 0, _, _, _, _, _ => .error .endless
  | rounds + 1, breakTimes, it, itFirst, itPrev, first =>
      if it = none then .ok breakTimes
      else do
        let item ← breakTimes.get it
        if item.name ≠ first then
          let breakTimes ← closeRun breakTimes itFirst itPrev
          let next ← breakTimes.next it
          compactLoop rounds breakTimes next it it item.name
        else
          let next ← breakTimes.next it
          compactLoop rounds breakTimes next itFirst it first

/-- `EncodeLocationForecast4::compactBreakTimes` on the list of the given break times. -/
def compactBreakTimes (breakTimes : List BreakTimes) : Except Fault (List BreakTimes) :=
  let list : BreakTimeList := LinkedList.ofList breakTimes
  if list.first = none then .ok breakTimes
  else do
    let item ← list.get list.first
    let next ← list.next list.first
    let compacted ← compactLoop (breakTimes.length + 1) list next list.first list.first item.name
    return compacted.values

/-! ## What it is for -/

/-- The maximal runs of adjacent break times of one provider. -/
abbrev providerRuns (breakTimes : List BreakTimes) : List (List BreakTimes) :=
  AdjacentRuns.runs name breakTimes

/-- The interval goes from the start of the first to the end of the last entry of a run. -/
structure Spans (run : List BreakTimes) (interval : BreakTimes) : Prop where
  from_eq : run.head?.map BreakTimes.from_ = some interval.from_
  to_eq : run.getLast?.map BreakTimes.to_ = some interval.to_

/-- The result has one entry for each run. -/
structure Compacts (breakTimes result : List BreakTimes) : Prop where
  distinct : result.IsChain fun earlier later => earlier.name ≠ later.name
  names : result.map name = (breakTimes.map name).destutter (· ≠ ·)
  intervals : List.Forall₂ Spans (providerRuns breakTimes) result

/-- Do the runs have one entry, or two when another run follows? -/
def ShortRuns (breakTimes : List BreakTimes) : Prop :=
  (∀ run ∈ (providerRuns breakTimes).dropLast, run.length ≤ 2) ∧
    ∀ run ∈ (providerRuns breakTimes).getLast?, run.length = 1

/-! ## One run -/

/-- The nodes of a run. -/
abbrev Nodes := List (ℕ × BreakTimes)

/-- The break times of nodes. -/
def valuesOf (nodes : Nodes) : List BreakTimes := nodes.map Prod.snd

/-- The iterators of the first and the last node. -/
def firstOf (nodes : Nodes) : LinkedList.Iterator := nodes.head?.map Prod.fst

def lastOf (nodes : Nodes) : LinkedList.Iterator := nodes.getLast?.map Prod.fst

/-- A run as one interval. -/
def join : List BreakTimes → List BreakTimes
  | [] => []
  | first :: rest => [{ first with to_ := ((first :: rest).getLast (List.cons_ne_nil _ _)).to_ }]

theorem eraseUntil_self (it : LinkedList.Iterator) (rounds : ℕ) (breakTimes : BreakTimeList) :
    eraseUntil it (rounds + 1) breakTimes it = .ok breakTimes := if_pos rfl

/-- Once the loop has erased a node, it goes on from an iterator that is no more. -/
theorem eraseUntil_ne {list : BreakTimeList} {before after : Nodes} {node : ℕ × BreakTimes}
    {last : ℕ} (split : list.nodes = before ++ node :: after) (notLast : node.1 ≠ last)
    (rounds : ℕ) : eraseUntil (some last) (rounds + 1) list (some node.1) = .error .iterator := by
  rcases LinkedList.exists_erase_next split with ⟨rest, isErased, noNext⟩
  have goesOn : some node.1 ≠ some last := by simpa using notLast
  rw [eraseUntil, if_neg goesOn, isErased]
  simp only [bind, Except.bind, noNext]

theorem closeRun_of_short {list : BreakTimeList} {before run after : Nodes}
    (split : list.nodes = before ++ (run ++ after)) (nonempty : run ≠ [])
    (short : run.length ≤ 2) :
    ∃ closed node, closeRun list (firstOf run) (lastOf run) = .ok closed ∧
      closed.nodes = before ++ node :: after ∧ [node.2] = join (valuesOf run) := by
  match run, nonempty, short with
  | [(address, value)], _, _ =>
      refine ⟨list, (address, value), ?_, split, rfl⟩
      simp only [closeRun, firstOf, lastOf, List.head?_cons, List.getLast?_singleton,
        Option.map_some]
      rw [LinkedList.distance_self split]
      rfl
  | [(address, value), (last, lastValue)], _, _ =>
      have lastSplit : list.nodes =
          (before ++ [(address, value)]) ++ (last, lastValue) :: after := by
        rw [split]
        simp
      have distance : list.distance (some address) (some last) = .ok 1 :=
        LinkedList.distance_eq (show list.nodes =
          before ++ (address, value) :: ([] ++ (last, lastValue) :: after) from split)
      obtain ⟨changed, isChanged, changedNodes⟩ := LinkedList.modify_eq split
        fun first => { first with to_ := lastValue.to_ }
      have afterFirst : changed.next (some address) = .ok (some last) :=
        LinkedList.next_eq changedNodes
      have changedSplit : changed.nodes =
          (before ++ [(address, { value with to_ := lastValue.to_ })]) ++
            (last, lastValue) :: after := by
        rw [changedNodes]
        simp
      obtain ⟨closed, isClosed, closedNodes⟩ := LinkedList.erase_eq changedSplit
      refine ⟨closed, (address, { value with to_ := lastValue.to_ }), ?_, ?_, rfl⟩
      · simp only [closeRun, firstOf, lastOf, List.head?_cons, List.getLast?_cons_cons,
          List.getLast?_singleton, Option.map_some]
        rw [distance]
        simp only [bind, Except.bind, LinkedList.get_eq lastSplit, isChanged, afterFirst,
          eraseUntil_self, isClosed, if_pos Nat.one_pos]
      · rw [closedNodes]
        simp

theorem closeRun_of_long {list : BreakTimeList} {before run after : Nodes}
    (split : list.nodes = before ++ (run ++ after)) (long : 2 < run.length) :
    closeRun list (firstOf run) (lastOf run) = .error .iterator := by
  match run, long with
  | (address, value) :: second :: third :: others, _ =>
      obtain ⟨middle, last, isLast⟩ : ∃ middle last, third :: others = middle ++ [last] := by
        refine ⟨(third :: others).dropLast, (third :: others).getLast (List.cons_ne_nil _ _), ?_⟩
        exact (List.dropLast_append_getLast _).symm
      have firstSplit : list.nodes =
          before ++ (address, value) :: (second :: middle ++ last :: after) := by
        rw [split, isLast]
        simp
      have lastSplit : list.nodes =
          (before ++ (address, value) :: second :: middle) ++ last :: after := by
        rw [firstSplit]
        simp
      have distance : list.distance (some address) (some last.1) = .ok (middle.length + 2) :=
        LinkedList.distance_eq firstSplit
      obtain ⟨changed, isChanged, changedNodes⟩ := LinkedList.modify_eq firstSplit
        fun first => { first with to_ := last.2.to_ }
      have afterFirst : changed.next (some address) = .ok (some second.1) :=
        LinkedList.next_eq changedNodes
      have secondSplit : changed.nodes =
          (before ++ [(address, { value with to_ := last.2.to_ })]) ++
            second :: (middle ++ last :: after) := by
        rw [changedNodes]
        simp
      have notLast : second.1 ≠ last.1 :=
        LinkedList.ne_of_mem_before lastSplit (by simp)
      have ends : lastOf ((address, value) :: second :: third :: others) = some last.1 := by
        have whole : (address, value) :: second :: third :: others =
            ((address, value) :: second :: middle) ++ [last] := by
          rw [isLast]
          rfl
        rw [lastOf, whole, List.getLast?_concat]
        rfl
      rw [ends]
      simp only [closeRun, firstOf, List.head?_cons, Option.map_some]
      rw [distance]
      simp only [bind, Except.bind, LinkedList.get_eq lastSplit, isChanged, afterFirst,
        eraseUntil_ne secondSplit notLast, if_pos (Nat.succ_pos _)]

/-! ## All runs -/

/-- What becomes of the runs: the last one stays as it is. -/
def compacted : List (List BreakTimes) → Except Fault (List BreakTimes)
  | [] => .ok []
  | [last] => .ok last
  | run :: next :: rest =>
      if run.length ≤ 2 then (compacted (next :: rest)).map (join run ++ ·)
      else .error .iterator

theorem compacted_cons_runs {run list : List BreakTimes} (nonempty : list ≠ []) :
    compacted (run :: providerRuns list) =
      if run.length ≤ 2 then (compacted (providerRuns list)).map (join run ++ ·)
      else .error .iterator := by
  have someRun : providerRuns list ≠ [] := AdjacentRuns.runs_ne_nil nonempty
  obtain ⟨next, rest, runs⟩ := List.exists_cons_of_ne_nil someRun
  rw [runs, compacted]

theorem valuesOf_append (nodes others : Nodes) :
    valuesOf (nodes ++ others) = valuesOf nodes ++ valuesOf others := List.map_append

/-- The loop at a node. -/
theorem compactLoop_node {list : BreakTimeList} {before after : Nodes} {node : ℕ × BreakTimes}
    (split : list.nodes = before ++ node :: after) (rounds : ℕ)
    (itFirst itPrev : LinkedList.Iterator) (first : Bytes) :
    compactLoop (rounds + 1) list (some node.1) itFirst itPrev first =
      if node.2.name ≠ first then do
        let closed ← closeRun list itFirst itPrev
        let next ← closed.next (some node.1)
        compactLoop rounds closed next (some node.1) (some node.1) node.2.name
      else compactLoop rounds list (firstOf after) itFirst (some node.1) first := by
  rw [compactLoop, if_neg (Option.some_ne_none _)]
  simp only [bind, Except.bind, LinkedList.get_eq split, LinkedList.next_eq split, firstOf]

section AtNode

variable {list : BreakTimeList} {before run rest : Nodes} {node : ℕ × BreakTimes} {item : Bytes}

/-- A node of the same provider belongs to the run. -/
theorem compactLoop_same (split : list.nodes = before ++ (run ++ node :: rest))
    (nonempty : run ≠ []) (same : node.2.name = item) (rounds : ℕ) :
    compactLoop (rounds + 1) list (firstOf (node :: rest)) (firstOf run) (lastOf run) item =
      compactLoop rounds list (firstOf rest) (firstOf (run ++ [node])) (lastOf (run ++ [node]))
        item := by
  have nodeSplit : list.nodes = (before ++ run) ++ node :: rest := by
    rw [split, List.append_assoc]
  have atNode : firstOf (node :: rest) = some node.1 := rfl
  have firstSame : firstOf (run ++ [node]) = firstOf run := by
    rw [firstOf, List.head?_append_of_ne_nil _ nonempty, firstOf]
  have lastNode : lastOf (run ++ [node]) = some node.1 := by
    rw [lastOf, List.getLast?_concat]
    rfl
  rw [atNode, compactLoop_node nodeSplit, if_neg (not_not_intro same), firstSame, lastNode]

/-- A node of another provider closes a short run and starts the next one. -/
theorem compactLoop_of_short (split : list.nodes = before ++ (run ++ node :: rest))
    (nonempty : run ≠ []) (other : node.2.name ≠ item) (short : run.length ≤ 2) (rounds : ℕ) :
    ∃ closed joined, compactLoop (rounds + 1) list (firstOf (node :: rest)) (firstOf run)
        (lastOf run) item =
      compactLoop rounds closed (firstOf rest) (firstOf [node]) (lastOf [node]) node.2.name ∧
        closed.nodes = (before ++ [joined]) ++ ([node] ++ rest) ∧
          [joined.2] = join (valuesOf run) := by
  have nodeSplit : list.nodes = (before ++ run) ++ node :: rest := by
    rw [split, List.append_assoc]
  have atNode : firstOf (node :: rest) = some node.1 := rfl
  obtain ⟨closed, joined, isClosed, closedNodes, isJoined⟩ :=
    closeRun_of_short split nonempty short
  have closedSplit : closed.nodes = (before ++ [joined]) ++ node :: rest := by
    rw [closedNodes, List.append_cons]
  refine ⟨closed, joined, ?_, closedSplit, isJoined⟩
  rw [atNode, compactLoop_node nodeSplit, if_pos other, isClosed]
  simp only [bind, Except.bind, LinkedList.next_eq closedSplit]
  rfl

/-- A node of another provider cannot close a long run. -/
theorem compactLoop_of_long (split : list.nodes = before ++ (run ++ node :: rest))
    (other : node.2.name ≠ item) (long : 2 < run.length) (rounds : ℕ) :
    compactLoop (rounds + 1) list (firstOf (node :: rest)) (firstOf run) (lastOf run) item =
      .error .iterator := by
  have nodeSplit : list.nodes = (before ++ run) ++ node :: rest := by
    rw [split, List.append_assoc]
  have atNode : firstOf (node :: rest) = some node.1 := rfl
  rw [atNode, compactLoop_node nodeSplit, if_pos other, closeRun_of_long split long]
  rfl

end AtNode

/-- The loop makes of the run at hand and of the rest what becomes of their runs. -/
theorem values_compactLoop {list : BreakTimeList} {before run after : Nodes} {item : Bytes}
    (split : list.nodes = before ++ (run ++ after))
    (isRun : AdjacentRuns.IsRun name item (valuesOf run)) {rounds : ℕ}
    (enough : after.length < rounds) :
    (compactLoop rounds list (firstOf after) (firstOf run) (lastOf run) item).map
        LinkedList.values =
      (compacted (providerRuns (valuesOf run ++ valuesOf after))).map (valuesOf before ++ ·) := by
  induction after generalizing list before run item rounds with
  | nil =>
      obtain ⟨rounds, rfl⟩ := Nat.exists_eq_add_of_lt enough
      have ends : compactLoop (0 + rounds + 1) list (firstOf []) (firstOf run) (lastOf run) item =
          .ok list := if_pos rfl
      have runs := isRun.runs_eq
      rw [List.append_nil] at split
      simp only [valuesOf, List.map_nil, List.append_nil] at runs ⊢
      simp only [List.length_nil, ends, providerRuns, runs, compacted, Except.map,
        LinkedList.values, split, List.map_append]
  | cons node rest ih =>
      obtain ⟨rounds, rfl⟩ := Nat.exists_eq_succ_of_ne_zero (Nat.ne_zero_of_lt enough)
      have enoughLeft : rest.length < rounds := Nat.lt_of_succ_lt_succ enough
      have nonempty : run ≠ [] := by
        rintro rfl
        exact isRun.nonempty rfl
      have head : valuesOf (node :: rest) = node.2 :: valuesOf rest := rfl
      by_cases same : node.2.name = item
      · have grown : AdjacentRuns.IsRun name item (valuesOf (run ++ [node])) := by
          rw [valuesOf_append]
          exact isRun.concat same
        have grownSplit : list.nodes = before ++ ((run ++ [node]) ++ rest) := by
          rw [split, ← List.append_cons]
        rw [compactLoop_same split nonempty same, ih grownSplit grown enoughLeft,
          valuesOf_append, List.append_assoc]
        rfl
      · have runs : providerRuns (valuesOf run ++ node.2 :: valuesOf rest) =
            valuesOf run :: providerRuns (node.2 :: valuesOf rest) := isRun.runs_append same
        have sameLength : (valuesOf run).length = run.length := List.length_map _
        rw [head, runs, compacted_cons_runs (List.cons_ne_nil node.2 (valuesOf rest)), sameLength]
        by_cases short : run.length ≤ 2
        · obtain ⟨closed, joined, continues, closedSplit, isJoined⟩ :=
            compactLoop_of_short split nonempty same short rounds
          have alone : AdjacentRuns.IsRun name node.2.name (valuesOf [node]) :=
            AdjacentRuns.isRun_singleton node.2
          have others : valuesOf [node] ++ valuesOf rest = node.2 :: valuesOf rest := rfl
          rw [continues, ih closedSplit alone enoughLeft, if_pos short, others, valuesOf_append,
            ← isJoined]
          cases compacted (providerRuns (node.2 :: valuesOf rest)) with
          | error fault => rfl
          | ok result => simp [Except.map, valuesOf]
        · rw [compactLoop_of_long split same (Nat.lt_of_not_le short), if_neg short]
          rfl

/-- `compactBreakTimes` is what becomes of the runs. -/
theorem compactBreakTimes_eq (breakTimes : List BreakTimes) :
    compactBreakTimes breakTimes = compacted (providerRuns breakTimes) := by
  have values := LinkedList.values_ofList breakTimes
  rw [LinkedList.values] at values
  cases nodes : (LinkedList.ofList breakTimes).nodes with
  | nil =>
      rw [nodes] at values
      subst values
      rfl
  | cons node rest =>
      have start : (LinkedList.ofList breakTimes).first = some node.1 := by
        rw [LinkedList.first, nodes]
        rfl
      have split : (LinkedList.ofList breakTimes).nodes = [] ++ ([node] ++ rest) := nodes
      have alone : AdjacentRuns.IsRun name node.2.name (valuesOf [node]) :=
        AdjacentRuns.isRun_singleton node.2
      rw [nodes] at values
      have enough : rest.length < breakTimes.length + 1 := by
        rw [← values, List.length_map, List.length_cons]
        omega
      have loop : (compactLoop (breakTimes.length + 1) (LinkedList.ofList breakTimes)
          (firstOf rest) (some node.1) (some node.1) node.2.name).map LinkedList.values =
            (compacted (providerRuns (valuesOf [node] ++ valuesOf rest))).map
              (valuesOf [] ++ ·) := values_compactLoop split alone enough
      have whole : valuesOf [node] ++ valuesOf rest = breakTimes := values
      have nodeSplit : (LinkedList.ofList breakTimes).nodes =
          [] ++ (node.1, node.2) :: rest := nodes
      rw [whole] at loop
      simp only [compactBreakTimes, start, if_neg (Option.some_ne_none node.1), bind, Except.bind,
        LinkedList.get_eq nodeSplit, LinkedList.next_eq nodeSplit]
      have plain : (compacted (providerRuns breakTimes)).map (valuesOf [] ++ ·) =
          compacted (providerRuns breakTimes) := by
        cases compacted (providerRuns breakTimes) with
        | error fault => rfl
        | ok result => rfl
      rw [plain] at loop
      rw [← loop, show rest.head?.map Prod.fst = firstOf rest from rfl]
      cases compactLoop (breakTimes.length + 1) (LinkedList.ofList breakTimes) (firstOf rest)
          (some node.1) (some node.1) node.2.name with
      | error fault => rfl
      | ok result => rfl

theorem compacted_of_short {runs : List (List BreakTimes)}
    (short : ∀ run ∈ runs.dropLast, run.length ≤ 2) :
    compacted runs = .ok (runs.dropLast.flatMap join ++ runs.getLast?.getD []) := by
  induction runs using compacted.induct with
  | case1 => rfl
  | case2 last => rfl
  | case3 run next rest isShort ih =>
      rw [List.dropLast_cons_cons] at short ⊢
      have shortRest := ih fun other member => short other (List.mem_cons_of_mem _ member)
      rw [compacted, if_pos isShort, shortRest, List.getLast?_cons_cons]
      simp [Except.map]
  | case4 run next rest long =>
      exact absurd (short run (by simp)) long

theorem short_of_compacted {runs : List (List BreakTimes)} {result : List BreakTimes}
    (isResult : compacted runs = .ok result) : ∀ run ∈ runs.dropLast, run.length ≤ 2 := by
  induction runs using compacted.induct generalizing result with
  | case1 => simp
  | case2 last => simp
  | case3 run next rest isShort ih =>
      rw [compacted, if_pos isShort] at isResult
      cases outcome : compacted (next :: rest) with
      | error fault =>
          rw [outcome] at isResult
          cases isResult
      | ok others =>
          intro other member
          rw [List.dropLast_cons_cons] at member
          rcases List.mem_cons.mp member with rfl | later
          · exact isShort
          · exact ih outcome other later
  | case4 run next rest long =>
      rw [compacted, if_neg long] at isResult
      cases isResult

/-! ## The runs as intervals -/

theorem spans_of_mem_join {run : List BreakTimes} {interval : BreakTimes}
    (member : interval ∈ join run) : Spans run interval := by
  cases run with
  | nil => cases member
  | cons first rest =>
      rw [List.mem_singleton.mp member]
      constructor
      · rfl
      · rw [List.getLast?_eq_some_getLast (List.cons_ne_nil first rest)]
        rfl

theorem join_of_isRun {item : Bytes} {run : List BreakTimes}
    (isRun : AdjacentRuns.IsRun name item run) :
    ∃ interval, join run = [interval] ∧ interval.name = item := by
  obtain ⟨first, rest, rfl⟩ := List.exists_cons_of_ne_nil isRun.nonempty
  exact ⟨_, rfl, isRun.keys first List.mem_cons_self⟩

/-- Joining every run is what compacting is for. -/
theorem compacts_join (breakTimes : List BreakTimes) :
    Compacts breakTimes ((providerRuns breakTimes).flatMap join) := by
  have names : ((providerRuns breakTimes).flatMap join).map name =
      (breakTimes.map name).destutter (· ≠ ·) := by
    have keys := AdjacentRuns.keys_runs name breakTimes
    have joined (runs : List (List BreakTimes))
        (areRuns : ∀ run ∈ runs, ∃ item, AdjacentRuns.IsRun name item run) :
        ((runs.flatMap join).map name).map some = runs.map fun run => run.head?.map name := by
      induction runs with
      | nil => rfl
      | cons run rest ih =>
          obtain ⟨item, isRun⟩ := areRuns run List.mem_cons_self
          obtain ⟨first, others, rfl⟩ := List.exists_cons_of_ne_nil isRun.nonempty
          have later := ih fun other member => areRuns other (List.mem_cons_of_mem _ member)
          rw [List.flatMap_cons, List.map_append, List.map_append, later]
          rfl
    apply List.map_injective_iff.mpr (Option.some_injective Bytes)
    rw [joined _ fun run member => AdjacentRuns.exists_isRun_of_mem_runs member, keys]
  constructor
  · have chain : (((providerRuns breakTimes).flatMap join).map name).IsChain (· ≠ ·) := by
      rw [names]
      exact List.isChain_destutter (· ≠ ·) _
    exact (List.isChain_map name).mp chain
  · exact names
  · have all (runs : List (List BreakTimes))
        (areRuns : ∀ run ∈ runs, ∃ item, AdjacentRuns.IsRun name item run) :
        List.Forall₂ Spans runs (runs.flatMap join) := by
      induction runs with
      | nil => exact List.Forall₂.nil
      | cons run rest ih =>
          obtain ⟨item, isRun⟩ := areRuns run List.mem_cons_self
          obtain ⟨interval, isJoin, _⟩ := join_of_isRun isRun
          rw [List.flatMap_cons, isJoin, List.singleton_append]
          constructor
          · exact spans_of_mem_join (by rw [isJoin]; exact List.mem_singleton_self interval)
          · exact ih fun other member => areRuns other (List.mem_cons_of_mem _ member)
    exact all _ fun run member => AdjacentRuns.exists_isRun_of_mem_runs member

/-- `compactBreakTimes` compacts the break times exactly if no run has three entries and the
last one has a single entry. -/
theorem compactBreakTimes_iff (breakTimes : List BreakTimes) :
    (∃ result, compactBreakTimes breakTimes = .ok result ∧ Compacts breakTimes result) ↔
      ShortRuns breakTimes := by
  rw [compactBreakTimes_eq]
  constructor
  · rintro ⟨result, isResult, compacts⟩
    have short := short_of_compacted isResult
    refine ⟨short, ?_⟩
    intro run isLast
    obtain ⟨item, isRun⟩ := AdjacentRuns.exists_isRun_of_mem_runs (List.mem_of_mem_getLast? isLast)
    rw [compacted_of_short short, Option.mem_def.mp isLast] at isResult
    cases isResult
    have chain := (List.isChain_append.mp compacts.distinct).2.1
    match run, isRun, chain with
    | [], isRun, _ => exact absurd rfl isRun.nonempty
    | [_], _, _ => rfl
    | first :: second :: rest, isRun, chain =>
        have differ := (List.isChain_cons_cons.mp chain).1
        rw [isRun.keys first (by simp), isRun.keys second (by simp)] at differ
        exact absurd rfl differ
  · rintro ⟨short, lastOne⟩
    refine ⟨(providerRuns breakTimes).flatMap join, ?_, compacts_join breakTimes⟩
    rw [compacted_of_short short]
    cases isLast : (providerRuns breakTimes).getLast? with
    | none =>
        rw [List.getLast?_eq_none_iff] at isLast
        rw [isLast]
        rfl
    | some run =>
        obtain ⟨only, rfl⟩ := List.length_eq_one_iff.mp (lastOne run isLast)
        obtain ⟨front, runs⟩ := List.getLast?_eq_some_iff.mp isLast
        rw [runs, List.dropLast_concat, List.flatMap_append]
        rfl

section Places

/-- Two places of one provider. -/
def twoPlaces : List BreakTimes :=
  [⟨Bytes.str "arome [oslo]", .ticks 0, .ticks 1, .notADateTime⟩,
   ⟨Bytes.str "arome [bergen]", .ticks 2, .ticks 3, .ticks 1⟩]

/-- Three places of one provider in front of another provider. -/
def threePlaces : List BreakTimes :=
  twoPlaces ++
    [⟨Bytes.str "arome [tromso]", .ticks 4, .ticks 5, .ticks 3⟩,
     ⟨Bytes.str "ecmwf", .ticks 6, .ticks 7, .ticks 5⟩]

/-- The last run is left as it is, and a run of three is not closed. -/
theorem not_compacts_places :
    (¬∃ result, compactBreakTimes twoPlaces = .ok result ∧ Compacts twoPlaces result) ∧
      compactBreakTimes threePlaces = .error .iterator := by
  constructor
  · rintro ⟨result, isResult, compacts⟩
    have unchanged : compactBreakTimes twoPlaces = .ok twoPlaces := by rfl
    rw [unchanged] at isResult
    cases isResult
    have differ := (List.isChain_cons_cons.mp compacts.distinct).1
    revert differ
    decide
  · rfl

end Places

end EncodeLocationForecast4

end Wdb2ts
