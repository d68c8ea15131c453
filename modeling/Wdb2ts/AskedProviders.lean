import Wdb2ts.ListedProviders

/-!
# The providers that are asked

A call of `hasNext` goes on with a new query, or with the next provider of the query before.  It
asks only providers that the filter of disabled providers has left of that query, however often it
has been called.
-/

namespace Wdb2ts

namespace WdbQueryHelper

variable {F : Type} [TextFunctions F] (isotimeString : PTime → Bytes)

/-- The providers from the position on have been left of a decoded query. -/
def AsksKept (decoded helper : WdbQueryHelper F) : Prop :=
  ∀ item ∈ helper.itCurProviderPriority, item.provider ∈ decoded.keptProviders

/-- What a call of `hasNext` goes on with: the provider at the position, or all that are left of a
decoded query. -/
inductive GoesOnWith (decoded answered : WdbQueryHelper F) : Prop where
  | one (item : ProviderItem) (param : UrlParamString)
      (atPosition : answered.itCurProviderPriority.head? = some item)
      (isKept : item.provider ∈ decoded.keptProviders)
      (asked : answered.webQuery.dataprovider = param.decode item.provider)
  | all (asked : answered.webQuery.dataprovider.valueList = decoded.keptProviders)

/-- The helper behind a call of `hasNext`. -/
def call (helper : WdbQueryHelper F) : WdbQueryHelper F := (helper.hasNext isotimeString).2

/-! ## The position and the providers of the query -/

/-- The providers from the position on, and those of the query. -/
def asking (helper : WdbQueryHelper F) : ProviderList × UrlParamString :=
  (helper.itCurProviderPriority, helper.webQuery.dataprovider)

omit [TextFunctions F] in
theorem asking_andThen {decoded : Option Bytes × WciWebQuery F} {helper : WdbQueryHelper F}
    {next : WdbQueryHelper F → RoundResult × WdbQueryHelper F}
    (sameProviders : decoded.2.dataprovider = helper.webQuery.dataprovider)
    (stays : ∀ helper, (next helper).2.asking = helper.asking) :
    (andThen decoded helper next).2.asking = helper.asking := by
  have same : ({ helper with webQuery := decoded.2 } : WdbQueryHelper F).asking = helper.asking :=
    congrArg (Prod.mk helper.itCurProviderPriority) sameProviders
  simp only [andThen]
  cases decoded.1 with
  | some what => exact same
  | none => exact (stays _).trans same

theorem asking_finish (helper : WdbQueryHelper F) : helper.finish.2.asking = helper.asking := by
  refine asking_andThen rfl fun helper => ?_
  split
  · exact asking_andThen rfl fun _ => rfl
  · rfl

theorem asking_finishWith (helper : WdbQueryHelper F) (times : PTime × PTime) :
    (helper.finishWith isotimeString times).2.asking = helper.asking :=
  asking_andThen rfl asking_finish

theorem asking_askProvider (helper : WdbQueryHelper F) (provider : ProviderItem)
    (times : PTime × PTime) :
    (helper.askProvider isotimeString provider times).2.asking =
      (helper.itCurProviderPriority, helper.webQuery.dataprovider.decode provider.provider) :=
  asking_finishWith isotimeString _ times

/-! ## The next provider with a reference time -/

section Seek

variable {reftimes : ProviderRefTimeList} {name : ProviderItem → Bytes} {list : ProviderList}

theorem seekReftime_suffix : (seekReftime reftimes name list).2 <:+ list := by
  induction list with
  | nil => exact List.suffix_refl []
  | cons item rest ih =>
      simp only [seekReftime]
      split
      · exact ih.trans (List.suffix_cons item rest)
      · exact List.suffix_refl _

theorem seekReftime_of_none (none : (seekReftime reftimes name list).1 = none) :
    (seekReftime reftimes name list).2 = [] := by
  induction list with
  | nil => rfl
  | cons item rest ih =>
      simp only [seekReftime] at none ⊢
      split at none
      · exact ih none
      · cases none

theorem head?_seekReftime {item : ProviderItem} {times : PTime × PTime}
    (found : (seekReftime reftimes name list).1 = some (item, times)) :
    (seekReftime reftimes name list).2.head? = some item := by
  induction list with
  | nil => cases found
  | cons other rest ih =>
      simp only [seekReftime] at found ⊢
      split at found
      · exact ih found
      · cases found
        rfl

end Seek

/-! ## A decoded query -/

section Decoded

variable {decoded selected : WdbQueryHelper F}

omit [TextFunctions F] in
theorem selected_of_selectProviders (isSelected : decoded.selectProviders = .ok (some selected)) :
    selected.itCurProviderPriority = decoded.itCurProviderPriority ∧
      decoded.keptProviders = selected.providers := by
  constructor
  · simp only [selectProviders] at isSelected
    repeat' split at isSelected
    all_goals cases isSelected
    all_goals rfl
  · rw [keptProviders, isSelected]

/-- A query that asks for reference times goes on to the first provider that has one. -/
theorem chooseReftime_of_asks (asks : selected.asksReftime = true) :
    (selected.chooseReftime isotimeString).2.itCurProviderPriority =
        (seekReftime selected.reftimes ProviderItem.provider selected.curProviderPriority).2 ∧
      ((selected.chooseReftime isotimeString).1 = .found → ∃ item,
        (selected.chooseReftime isotimeString).2.itCurProviderPriority.head? = some item ∧
          (selected.chooseReftime isotimeString).2.webQuery.dataprovider =
            selected.webQuery.dataprovider.decode item.provider) := by
  simp only [chooseReftime, asks, if_true]
  cases sought : (seekReftime selected.reftimes ProviderItem.provider
      selected.curProviderPriority).1 with
  | none =>
      constructor
      · rfl
      · intro found
        cases found
  | some found =>
      rcases found with ⟨item, times⟩
      have asked := asking_askProvider isotimeString
        { selected with
          itCurProviderPriority := (seekReftime selected.reftimes ProviderItem.provider
            selected.curProviderPriority).2 } item times
      have position := congrArg Prod.fst asked
      refine ⟨position, fun _ => ⟨item, ?_, congrArg Prod.snd asked⟩⟩
      exact (congrArg List.head? position).trans (head?_seekReftime sought)

/-- Another query stays with all of its providers. -/
theorem chooseReftime_of_not_asks (asks : selected.asksReftime = false) :
    (selected.chooseReftime isotimeString).2.asking = selected.asking := by
  simp only [chooseReftime, asks, Bool.false_eq_true, if_false]
  split
  · split
    · rfl
    · exact asking_finishWith isotimeString _ _
  · split
    · split
      · rfl
      · exact asking_finishWith isotimeString _ _
    · exact asking_finish _

/-- The providers from the position on are some of those that are left. -/
theorem asksKept_chooseReftime (fresh : decoded.itCurProviderPriority = [])
    (isSelected : decoded.selectProviders = .ok (some selected)) :
    AsksKept decoded (selected.chooseReftime isotimeString).2 := by
  obtain ⟨samePosition, isKept⟩ := selected_of_selectProviders isSelected
  intro item member
  rw [isKept, providers]
  cases asks : selected.asksReftime with
  | true =>
      rw [(chooseReftime_of_asks isotimeString asks).1] at member
      exact List.mem_map_of_mem (seekReftime_suffix.subset member)
  | false =>
      have position := congrArg Prod.fst (chooseReftime_of_not_asks isotimeString asks)
      simp only [asking] at position
      rw [position, samePosition, fresh] at member
      cases member

theorem goesOnWith_chooseReftime (fresh : decoded.itCurProviderPriority = [])
    (isSelected : decoded.selectProviders = .ok (some selected))
    (found : (selected.chooseReftime isotimeString).1 = .found) :
    GoesOnWith decoded (selected.chooseReftime isotimeString).2 := by
  cases asks : selected.asksReftime with
  | true =>
      obtain ⟨item, atPosition, asked⟩ := (chooseReftime_of_asks isotimeString asks).2 found
      refine .one item _ atPosition ?_ asked
      exact asksKept_chooseReftime isotimeString fresh isSelected item
        (List.mem_of_mem_head? atPosition)
  | false =>
      have same := congrArg Prod.snd (chooseReftime_of_not_asks isotimeString asks)
      have isKept := (selected_of_selectProviders isSelected).2
      refine .all ?_
      rw [isKept, providers, asks]
      exact congrArg UrlParamString.valueList same

end Decoded

/-! ## A call -/

theorem position_startQuery {helper decoded : WdbQueryHelper F} {query : QueryElement}
    {text : Bytes} (isStarted : helper.startQuery query = (.ok text, decoded)) :
    decoded.itCurProviderPriority = [] := by
  simp only [startQuery] at isStarted
  split at isStarted
  · cases isStarted
  · cases isStarted
    rfl

theorem position_startQuery_error {helper failed : WdbQueryHelper F} {query : QueryElement}
    {what : Bytes} (isStarted : helper.startQuery query = (.error what, failed)) :
    failed.itCurProviderPriority = helper.itCurProviderPriority := by
  simp only [startQuery] at isStarted
  split at isStarted
  · cases isStarted
    rfl
  · cases isStarted

theorem position_comesTo {querys : List QueryElement} {helper decoded : WdbQueryHelper F}
    (comes : decoded ∈ comesTo isotimeString querys helper) :
    decoded.itCurProviderPriority = [] := by
  induction querys generalizing helper with
  | nil => cases comes
  | cons query rest ih =>
      simp only [comesTo] at comes
      split at comes
      · cases comes
      · rename_i here isStarted
        split at comes
        · rcases List.mem_cons.mp comes with isHere | later
          · rw [isHere]
            exact position_startQuery isStarted
          · exact ih later
        · rw [List.mem_singleton.mp comes]
          exact position_startQuery isStarted

omit [TextFunctions F] in
theorem asksKept_of_position {decoded helper : WdbQueryHelper F}
    (fresh : helper.itCurProviderPriority = []) : AsksKept decoded helper := by
  intro item member
  rw [fresh] at member
  cases member

omit [TextFunctions F] in
theorem AsksKept.congr {decoded helper other : WdbQueryHelper F} (asks : AsksKept decoded helper)
    (same : other.itCurProviderPriority = helper.itCurProviderPriority) :
    AsksKept decoded other := by
  intro item member
  exact asks item (same ▸ member)

/-- The loop over the queries stays at its position, or goes to one of a query that it comes to. -/
theorem position_tryQuerys (querys : List QueryElement) (helper : WdbQueryHelper F) :
    (tryQuerys isotimeString querys helper).2.itCurProviderPriority =
        helper.itCurProviderPriority ∨
      ∃ decoded ∈ comesTo isotimeString querys helper,
        AsksKept decoded (tryQuerys isotimeString querys helper).2 := by
  induction querys generalizing helper with
  | nil => exact Or.inl rfl
  | cons query rest ih =>
      simp only [tryQuerys, comesTo]
      cases isStarted : (helper.at_ (query :: rest)).startQuery query with
      | mk result decoded =>
          cases result with
          | error what =>
              simp only [tryQuery, isStarted]
              have same := position_startQuery_error isStarted
              exact Or.inl same
          | ok text =>
              have fresh := position_startQuery isStarted
              simp only [tryQuery, isStarted]
              cases isSelected : decoded.selectProviders with
              | error what =>
                  exact Or.inr ⟨decoded, List.mem_cons_self, asksKept_of_position fresh⟩
              | ok selected =>
                  cases selected with
                  | none =>
                      right
                      rcases ih decoded with same | ⟨later, comes, asks⟩
                      · exact ⟨decoded, List.mem_cons_self,
                          asksKept_of_position (same.trans fresh)⟩
                      · exact ⟨later, List.mem_cons_of_mem _ comes, asks⟩
                  | some selected =>
                      right
                      have asks := asksKept_chooseReftime isotimeString fresh isSelected
                      cases chosen : selected.chooseReftime isotimeString with
                      | mk result next =>
                          simp only [chosen] at asks ⊢
                          cases result with
                          | threw what => exact ⟨decoded, List.mem_cons_self, asks⟩
                          | found => exact ⟨decoded, List.mem_cons_self, asks⟩
                          | skipped =>
                              rcases ih next with same | ⟨later, comes, asksLater⟩
                              · exact ⟨decoded, List.mem_cons_self, asks.congr same⟩
                              · exact ⟨later, List.mem_cons_of_mem _ comes, asksLater⟩

omit [TextFunctions F] in
/-- A call looks for the next provider of the query before, and then there is none, or it is the
one at the position. -/
theorem nextProvider_cases (helper : WdbQueryHelper F) :
    (∃ next, helper.nextProvider = (none, next) ∧ next.itCurProviderPriority = []) ∨
      ∃ item times next, helper.nextProvider = (some (item, times), next) ∧
        next.itCurProviderPriority <:+ helper.itCurProviderPriority ∧
          next.itCurProviderPriority.head? = some item := by
  cases position : helper.itCurProviderPriority with
  | nil =>
      left
      simp [nextProvider, position]
  | cons current rest =>
      simp only [nextProvider, position]
      generalize (fun item : ProviderItem =>
        if helper.reftimeProvider.isEmpty then item.provider else helper.reftimeProvider) = name
      cases sought : (seekReftime helper.reftimes name rest).1 with
      | none => exact Or.inl ⟨_, rfl, seekReftime_of_none sought⟩
      | some found =>
          rcases found with ⟨item, times⟩
          right
          refine ⟨item, times, _, rfl, ?_, head?_seekReftime sought⟩
          exact seekReftime_suffix.trans (List.suffix_cons current rest)

theorem call_of_some {helper next : WdbQueryHelper F} {item : ProviderItem}
    {times : PTime × PTime} (isNext : helper.nextProvider = (some (item, times), next)) :
    helper.call isotimeString = (next.askProvider isotimeString item times).2 := by
  simp only [call, hasNext, isNext]
  cases next.askProvider isotimeString item times with
  | mk result answered => cases result <;> rfl

theorem call_of_none {helper next : WdbQueryHelper F}
    (isNext : helper.nextProvider = (none, next)) :
    helper.call isotimeString = (tryQuerys isotimeString next.nextQuerys next).2 := by
  simp only [call, hasNext, isNext]

/-- The providers from the position on behind a call are some of those before it, or some of those
that are left of a query that the call comes to. -/
theorem position_call (helper : WdbQueryHelper F) :
    (helper.call isotimeString).itCurProviderPriority <:+ helper.itCurProviderPriority ∨
      ∃ decoded ∈ helper.decodedQuerys isotimeString,
        AsksKept decoded (helper.call isotimeString) := by
  rcases nextProvider_cases helper with ⟨next, isNext, fresh⟩ |
    ⟨item, times, next, isNext, suffix, _⟩
  · rw [call_of_none isotimeString isNext, decodedQuerys, isNext]
    rcases position_tryQuerys isotimeString next.nextQuerys next with same | asks
    · left
      rw [same, fresh]
      exact List.nil_suffix
    · exact Or.inr asks
  · left
    have asked := asking_askProvider isotimeString next item times
    rw [← call_of_some isotimeString isNext] at asked
    have position : (helper.call isotimeString).itCurProviderPriority =
        next.itCurProviderPriority := congrArg Prod.fst asked
    rw [position]
    exact suffix

/-- What a call that answers true goes on with. -/
theorem goesOnWith_call {helper : WdbQueryHelper F}
    (isTrue : (helper.hasNext isotimeString).1 = .ok true) :
    (∃ decoded ∈ helper.decodedQuerys isotimeString,
        GoesOnWith decoded (helper.call isotimeString)) ∨
      ∃ item ∈ helper.itCurProviderPriority, ∃ param : UrlParamString,
        (helper.call isotimeString).itCurProviderPriority.head? = some item ∧
          (helper.call isotimeString).webQuery.dataprovider = param.decode item.provider := by
  rcases nextProvider_cases helper with ⟨next, isNext, _⟩ |
    ⟨item, times, next, isNext, suffix, atPosition⟩
  · left
    have noProvider : helper.nextProvider.1 = none := by rw [isNext]
    obtain ⟨decoded, comes, selected, isSelected, chosen⟩ :=
      hasNext_found isotimeString noProvider isTrue
    refine ⟨decoded, comes, ?_⟩
    rw [decodedQuerys_of_none isotimeString noProvider] at comes
    have goesOn := goesOnWith_chooseReftime isotimeString (position_comesTo isotimeString comes)
      isSelected (by rw [chosen])
    rw [chosen] at goesOn
    exact goesOn
  · right
    have asked := asking_askProvider isotimeString next item times
    rw [← call_of_some isotimeString isNext] at asked
    have position := congrArg Prod.fst asked
    refine ⟨item, suffix.subset (List.mem_of_mem_head? atPosition), _, ?_, congrArg Prod.snd asked⟩
    exact (congrArg List.head? position).trans atPosition

theorem reftimes_tryQuerys (querys : List QueryElement) (helper : WdbQueryHelper F) :
    (tryQuerys isotimeString querys helper).2.reftimes = helper.reftimes := by
  induction querys generalizing helper with
  | nil => rfl
  | cons query rest ih =>
      have tried := reftimes_tryQuery isotimeString (helper.at_ (query :: rest)) query
      simp only [tryQuerys]
      cases outcome : (helper.at_ (query :: rest)).tryQuery isotimeString query with
      | mk result next =>
          rw [outcome] at tried
          cases result with
          | threw what => exact tried
          | found => exact tried
          | skipped => exact (ih next).trans tried

theorem reftimes_call (helper : WdbQueryHelper F) :
    (helper.call isotimeString).reftimes = helper.reftimes := by
  have same := reftimes_nextProvider helper
  rcases nextProvider_cases helper with ⟨next, isNext, _⟩ | ⟨item, times, next, isNext, _, _⟩
  · rw [isNext] at same
    rw [call_of_none isotimeString isNext, reftimes_tryQuerys]
    exact same
  · rw [isNext] at same
    have asked : (next.askProvider isotimeString item times).2.reftimes = next.reftimes :=
      reftimes_andThen fun helper => reftimes_finishWith isotimeString helper _
    rw [call_of_some isotimeString isNext, asked]
    exact same

/-! ## All calls -/

/-- The helper behind some calls of `hasNext`. -/
def after (start : WdbQueryHelper F) (calls : ℕ) : WdbQueryHelper F :=
  (call isotimeString)^[calls] start

theorem after_succ (start : WdbQueryHelper F) (calls : ℕ) :
    start.after isotimeString (calls + 1) = (start.after isotimeString calls).call isotimeString :=
  Function.iterate_succ_apply' _ _ _

theorem reftimes_after (start : WdbQueryHelper F) (calls : ℕ) :
    (start.after isotimeString calls).reftimes = start.reftimes := by
  induction calls with
  | zero => rfl
  | succ calls ih => rw [after_succ, reftimes_call, ih]

/-- From the position on there are only providers that are left of a query that an earlier call has
come to. -/
theorem asksKept_after {start : WdbQueryHelper F} (fresh : start.itCurProviderPriority = [])
    (calls : ℕ) :
    (start.after isotimeString calls).itCurProviderPriority = [] ∨
      ∃ earlier < calls,
        ∃ decoded ∈ (start.after isotimeString earlier).decodedQuerys isotimeString,
          AsksKept decoded (start.after isotimeString calls) := by
  induction calls with
  | zero => exact Or.inl fresh
  | succ calls ih =>
      rw [after_succ]
      rcases position_call isotimeString (start.after isotimeString calls) with
        suffix | ⟨decoded, comes, asks⟩
      · rcases ih with none | ⟨earlier, before, decoded, comes, asks⟩
        · left
          rw [none] at suffix
          exact List.suffix_nil.mp suffix
        · right
          refine ⟨earlier, Nat.lt_succ_of_lt before, decoded, comes, ?_⟩
          exact fun item member => asks item (suffix.subset member)
      · exact Or.inr ⟨calls, Nat.lt_succ_self calls, decoded, comes, asks⟩

/-- However often `hasNext` is called, a call that answers true goes on with the providers that are
left of a query that it or an earlier call has come to.  If that query lists its providers, these
are listed, and `disabled` does not tell of them. -/
theorem goesOnWith_after {start : WdbQueryHelper F} (fresh : start.itCurProviderPriority = [])
    (calls : ℕ)
    (isTrue : ((start.after isotimeString calls).hasNext isotimeString).1 = .ok true) :
    ∃ earlier ≤ calls, ∃ decoded ∈ (start.after isotimeString earlier).decodedQuerys isotimeString,
      GoesOnWith decoded (start.after isotimeString (calls + 1)) ∧
        (decoded.webQuery.dataprovider.valueList ≠ [] →
          ∀ provider ∈ decoded.keptProviders,
            provider ∈ decoded.webQuery.dataprovider.valueList ∧
              start.reftimes.disabled provider ≠ some true) := by
  have usable {earlier : ℕ} {decoded : WdbQueryHelper F}
      (comes : decoded ∈ (start.after isotimeString earlier).decodedQuerys isotimeString)
      (lists : decoded.webQuery.dataprovider.valueList ≠ []) :
      ∀ provider ∈ decoded.keptProviders,
        provider ∈ decoded.webQuery.dataprovider.valueList ∧
          start.reftimes.disabled provider ≠ some true := by
    intro provider isKept
    rw [← reftimes_after isotimeString start earlier, ← reftimes_decodedQuerys isotimeString comes]
    exact (mem_keptProviders lists).mp isKept
  rw [after_succ]
  rcases goesOnWith_call isotimeString isTrue with
    ⟨decoded, comes, goesOn⟩ | ⟨item, member, param, atPosition, asked⟩
  · exact ⟨calls, le_refl calls, decoded, comes, goesOn, usable comes⟩
  · rcases asksKept_after isotimeString fresh calls with
      none | ⟨earlier, before, decoded, comes, asks⟩
    · rw [none] at member
      cases member
    · have goesOn := GoesOnWith.one item param atPosition (asks item member) asked
      exact ⟨earlier, before.le, decoded, comes, goesOn, usable comes⟩

/-- A provider at two places, of which none is disabled, and a query for the epoch. -/
def epochOfTwoPlaces : WdbQueryHelper ℚ :=
  { twoPlaces with
    urlQuerys := [{ twoPlaces.query with query := Bytes.str "dataprovider=met.no;reftime=epoch" }]
    reftimes :=
      .ofList
        [(Bytes.str "met.no [a]", ProviderTimes.create PTime.epoch default),
          (Bytes.str "met.no [b]", ProviderTimes.create PTime.epoch default)] }

theorem goesOnWith_after_epochOfTwoPlaces :
    ∃ earlier ≤ 0, ∃ decoded ∈
        (epochOfTwoPlaces.after (fun _ => Bytes.str "epoch") earlier).decodedQuerys
          fun _ => Bytes.str "epoch",
      GoesOnWith decoded (epochOfTwoPlaces.after (fun _ => Bytes.str "epoch") 1) ∧
        (decoded.webQuery.dataprovider.valueList ≠ [] →
          ∀ provider ∈ decoded.keptProviders,
            provider ∈ decoded.webQuery.dataprovider.valueList ∧
              epochOfTwoPlaces.reftimes.disabled provider ≠ some true) := by
  have answers : (epochOfTwoPlaces.hasNext fun _ => Bytes.str "epoch").1 = .ok true := by
    decide +kernel
  exact goesOnWith_after _ rfl 0 answers

end WdbQueryHelper

end Wdb2ts
