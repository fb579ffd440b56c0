/-!
# Chains of steps that may fail

Building and validation are chains of steps, each of which yields the next
state or a fault.  This file says what is known of a chain that succeeds, or of
one that may fail, and when two steps that yield a result beside the next state
come out alike.
-/

namespace Statechart

variable {Fault State Result Element : Type}

theorem exists_of_bind_eq_ok {first : Except Fault State} {next : State → Except Fault Result}
    {result : Result} (done : first >>= next = .ok result) :
    ∃ state, first = .ok state ∧ next state = .ok result := by
  cases first with
  | error fault => cases done
  | ok state => exact ⟨state, rfl, done⟩

theorem exists_of_map_eq_ok {outcome : Except Fault State} {convert : State → Result}
    {result : Result} (done : outcome.map convert = .ok result) :
    ∃ state, outcome = .ok state ∧ convert state = result := by
  cases outcome with
  | error fault => cases done
  | ok state => exact ⟨state, rfl, Except.ok.inj done⟩

/-- An invariant that every step keeps holds after a chain of steps, and what a
step achieves for its element holds for all elements if later steps keep it. -/
theorem foldlM_achieves {step : State → Element → Except Fault State} {Invariant : State → Prop}
    {Achieved : State → Element → Prop} {elements : List Element}
    (steps : ∀ state element next, element ∈ elements → Invariant state →
      step state element = .ok next →
      Invariant next ∧ Achieved next element ∧
        ∀ other, Achieved state other → Achieved next other)
    {first last : State} (holds : Invariant first) (done : elements.foldlM step first = .ok last) :
    Invariant last ∧ (∀ element ∈ elements, Achieved last element) ∧
      ∀ other, Achieved first other → Achieved last other := by
  induction elements generalizing first with
  | nil =>
      cases done
      exact ⟨holds, fun _ member => absurd member List.not_mem_nil, fun _ achieved => achieved⟩
  | cons element rest ih =>
      rw [List.foldlM_cons] at done
      obtain ⟨next, stepped, continued⟩ := exists_of_bind_eq_ok done
      obtain ⟨nextHolds, achieved, kept⟩ :=
        steps first element next List.mem_cons_self holds stepped
      obtain ⟨lastHolds, restAchieved, restKept⟩ :=
        ih (fun state other after member => steps state other after (List.mem_cons_of_mem _ member))
          nextHolds continued
      refine ⟨lastHolds, ?_, fun other earlier => restKept other (kept other earlier)⟩
      intro other member
      rcases List.mem_cons.1 member with same | isRest
      · exact same ▸ restKept element achieved
      · exact restAchieved other isRest

/-- An invariant that every step keeps holds after a chain of steps. -/
theorem foldlM_keeps {step : State → Element → Except Fault State} {Invariant : State → Prop}
    {elements : List Element}
    (steps : ∀ state element next, element ∈ elements → Invariant state →
      step state element = .ok next → Invariant next)
    {first last : State} (holds : Invariant first) (done : elements.foldlM step first = .ok last) :
    Invariant last := by
  have achieves : ∀ state element next, element ∈ elements → Invariant state →
      step state element = .ok next →
      Invariant next ∧ True ∧ ∀ _ : Element, True → True :=
    fun state element next member earlier stepped =>
      ⟨steps state element next member earlier stepped, trivial, fun _ => id⟩
  exact (foldlM_achieves achieves holds done).1

/-- A chain of steps fails because one of them does. -/
theorem exists_of_foldlM_eq_error {step : State → Element → Except Fault State}
    {elements : List Element} {first : State} {fault : Fault}
    (fails : elements.foldlM step first = .error fault) :
    ∃ state, ∃ element ∈ elements, step state element = .error fault := by
  induction elements generalizing first with
  | nil => cases fails
  | cons element rest ih =>
      rw [List.foldlM_cons] at fails
      cases stepped : step first element with
      | error other =>
          rw [stepped] at fails
          cases fails
          exact ⟨first, element, List.mem_cons_self, stepped⟩
      | ok next =>
          rw [stepped] at fails
          obtain ⟨state, other, isRest, failed⟩ := ih fails
          exact ⟨state, other, List.mem_cons_of_mem _ isRest, failed⟩

/-- A chain of steps that change nothing changes nothing. -/
theorem foldl_eq_self {step : State → Element → State} {elements : List Element} {state : State}
    (fixes : ∀ element ∈ elements, step state element = state) :
    elements.foldl step state = state := by
  induction elements with
  | nil => rfl
  | cons element rest ih =>
      rw [List.foldl_cons, fixes element List.mem_cons_self]
      exact ih fun other isRest => fixes other (List.mem_cons_of_mem _ isRest)

theorem foldlM_eq_ok_self {step : State → Element → Except Fault State} {elements : List Element}
    {state : State} (fixes : ∀ element ∈ elements, step state element = .ok state) :
    elements.foldlM step state = .ok state := by
  induction elements with
  | nil => rfl
  | cons element rest ih =>
      rw [List.foldlM_cons, fixes element List.mem_cons_self]
      exact ih fun other isRest => fixes other (List.mem_cons_of_mem _ isRest)

/-- Where a step finds just what is good and has the name that is asked for, a chain of steps
finds just what is good and has the names, one after the other. -/
theorem mapM_eq_ok_iff {find : Element → Except Fault Result} {Good : Result → Prop}
    {name : Result → Element}
    (finds : ∀ element result, find element = .ok result ↔ Good result ∧ name result = element)
    {elements : List Element} {results : List Result} :
    elements.mapM find = .ok results ↔
      (∀ result ∈ results, Good result) ∧ results.map name = elements := by
  induction elements generalizing results with
  | nil =>
      rw [List.mapM_nil, List.map_eq_nil_iff]
      constructor
      · intro done
        cases done
        exact ⟨fun _ member => absurd member List.not_mem_nil, rfl⟩
      · rintro ⟨-, rfl⟩
        rfl
  | cons element rest ih =>
      rw [List.mapM_cons]
      constructor
      · intro done
        obtain ⟨first, isFirst, continued⟩ := exists_of_bind_eq_ok done
        obtain ⟨others, areOthers, finished⟩ := exists_of_bind_eq_ok continued
        cases finished
        obtain ⟨good, named⟩ := (finds _ _).1 isFirst
        obtain ⟨allGood, allNamed⟩ := ih.1 areOthers
        exact ⟨List.forall_mem_cons.2 ⟨good, allGood⟩, by rw [List.map_cons, named, allNamed]⟩
      · rintro ⟨allGood, named⟩
        cases results with
        | nil => cases named
        | cons first others =>
            rw [List.map_cons, List.cons.injEq] at named
            obtain ⟨good, othersGood⟩ := List.forall_mem_cons.1 allGood
            rw [(finds _ _).2 ⟨good, named.1⟩, ih.2 ⟨othersGood, named.2⟩]
            rfl

/-! ## Success and failure -/

/-- What is known of a step: one thing of its result, another of its fault. -/
def Yields (OnResult : Result → Prop) (OnFault : Fault → Prop) : Except Fault Result → Prop
  | .ok result => OnResult result
  | .error fault => OnFault fault

namespace Yields

variable {OnResult OtherResult : Result → Prop} {OnFault OtherFault : Fault → Prop}

theorem bind (OnState : State → Prop) {first : Except Fault State}
    {next : State → Except Fault Result}
    (start : Yields OnState OnFault first)
    (continues : ∀ state, OnState state → Yields OnResult OnFault (next state)) :
    Yields OnResult OnFault (first >>= next) := by
  cases first with
  | error fault => exact start
  | ok state => exact continues state start

theorem imp {outcome : Except Fault Result} (known : Yields OnResult OnFault outcome)
    (results : ∀ result, OnResult result → OtherResult result)
    (faults : ∀ fault, OnFault fault → OtherFault fault) :
    Yields OtherResult OtherFault outcome := by
  cases outcome with
  | error fault => exact faults fault known
  | ok result => exact results result known

/-- What holds of the result of the step for another reason is known as well. -/
theorem and_ok {outcome : Except Fault Result} (known : Yields OnResult OnFault outcome)
    (results : ∀ result, outcome = .ok result → OtherResult result) :
    Yields (fun result => OnResult result ∧ OtherResult result) OnFault outcome := by
  cases outcome with
  | error fault => exact known
  | ok result => exact ⟨known, results result rfl⟩

theorem of_eq_ok {outcome : Except Fault Result} (known : Yields OnResult OnFault outcome)
    {result : Result} (done : outcome = .ok result) : OnResult result := by
  subst done
  exact known

theorem of_eq_error {outcome : Except Fault Result} (known : Yields OnResult OnFault outcome)
    {fault : Fault} (fails : outcome = .error fault) : OnFault fault := by
  subst fails
  exact known

/-- What is known of the fault for another reason takes the place of what was known. -/
theorem imp_error {outcome : Except Fault Result} (known : Yields OnResult OnFault outcome)
    (faults : ∀ fault, outcome = .error fault → OtherFault fault) :
    Yields OnResult OtherFault outcome := by
  cases outcome with
  | error fault => exact faults fault rfl
  | ok result => exact known

/-- A step succeeds exactly if what is told by success holds, where failure tells the contrary. -/
theorem exists_ok_iff {Holds : Prop} {outcome : Except Fault Result}
    (known : Yields OnResult OnFault outcome) (results : ∀ result, OnResult result → Holds)
    (faults : ∀ fault, OnFault fault → ¬ Holds) : (∃ result, outcome = .ok result) ↔ Holds := by
  cases outcome with
  | error fault =>
      refine iff_of_false ?_ (faults fault known)
      rintro ⟨result, succeeds⟩
      cases succeeds
  | ok result => exact iff_of_true ⟨result, rfl⟩ (results result known)

end Yields

/-- An invariant of what has been done so far that every step keeps, unless it fails. -/
theorem foldlM_yields (Invariant : List Element → State → Prop)
    {step : State → Element → Except Fault State} {OnFault : Fault → Prop}
    {elements : List Element}
    (steps : ∀ earlier element later state, earlier ++ element :: later = elements →
      Invariant earlier state →
      Yields (Invariant (earlier ++ [element])) OnFault (step state element))
    {first : State} (holds : Invariant [] first) :
    Yields (Invariant elements) OnFault (elements.foldlM step first) := by
  suffices general : ∀ remaining earlier state, earlier ++ remaining = elements →
      Invariant earlier state →
      Yields (Invariant elements) OnFault (remaining.foldlM step state) from
    general elements [] first rfl holds
  intro remaining
  induction remaining with
  | nil =>
      intro earlier state split reached
      rw [List.append_nil] at split
      exact split ▸ reached
  | cons element later ih =>
      intro earlier state split reached
      rw [List.foldlM_cons]
      refine (steps earlier element later state split reached).bind _ fun next => ih _ next ?_
      rw [List.append_assoc, List.singleton_append, split]

/-! ## Steps that come out alike -/

/-- Two steps have the same result and lead to related states. -/
structure SameOutcome (Related : State → State → Prop) (first second : Result × State) : Prop where
  result_eq : first.1 = second.1
  related : Related first.2 second.2

theorem SameOutcome.exists {Related : State → State → Prop} {first second : Result × State}
    (same : SameOutcome Related first second) :
    ∃ result next following, first = (result, next) ∧ second = (result, following) ∧
      Related next following :=
  ⟨first.1, first.2, second.2, rfl, Prod.ext same.result_eq.symm rfl, same.related⟩

theorem SameOutcome.map {Other : Type} {Related : State → State → Prop}
    {first second : Result × State} (same : SameOutcome Related first second)
    (change : Result → Other) :
    SameOutcome Related (first.map change id) (second.map change id) :=
  ⟨congrArg change same.result_eq, same.related⟩

end Statechart
