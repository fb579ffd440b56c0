import Statechart.Proofs.Machine.Attempts

/-!
# The microsteps of a run

An operation takes microsteps one after the other, and every microstep begins where
the one before it has ended.  So whatever each microstep keeps holds in the end, and
what a microstep does can be said apart from the macrosteps and operations around it.
-/

namespace Statechart

/-- A microstep that was taken. -/
structure Turn where
  before : Status
  transitions : List TransitionId
  generated : List Event
  after : Status

namespace Turn

/-- Each turn begins where the one before it has ended, the first one at a status. -/
def AreConsecutive (status : Status) : List Turn → Prop
  | [] => True
  | turn :: rest => turn.before = status ∧ AreConsecutive turn.after rest

def finish (status : Status) (turns : List Turn) : Status :=
  turns.foldl (fun _ turn => turn.after) status

theorem areConsecutive_append {status : Status} {first second : List Turn} :
    AreConsecutive status (first ++ second) ↔
      AreConsecutive status first ∧ AreConsecutive (finish status first) second := by
  induction first generalizing status with
  | nil => simp [AreConsecutive, finish]
  | cons turn rest ih =>
      rw [List.cons_append, AreConsecutive, AreConsecutive, ih, and_assoc]
      rfl

theorem finish_append (status : Status) (first second : List Turn) :
    finish status (first ++ second) = finish (finish status first) second :=
  List.foldl_append

/-- What each turn keeps holds before each turn, and in the end. -/
theorem AreConsecutive.keeps {Holds : Status → Prop} {status : Status} {turns : List Turn}
    (consecutive : AreConsecutive status turns) (holds : Holds status)
    (keeps : ∀ turn ∈ turns, Holds turn.before → Holds turn.after) :
    (∀ turn ∈ turns, Holds turn.before) ∧ Holds (finish status turns) := by
  induction turns generalizing status with
  | nil => exact ⟨fun _ member => absurd member List.not_mem_nil, holds⟩
  | cons turn rest ih =>
      obtain ⟨rfl, others⟩ := consecutive
      obtain ⟨before, last⟩ := ih others (keeps turn List.mem_cons_self holds)
        (fun other member => keeps other (List.mem_cons_of_mem _ member))
      refine ⟨fun other member => ?_, last⟩
      rcases List.mem_cons.1 member with rfl | isRest
      · exact holds
      · exact before other isRest

/-- A turn of a program: a microstep where no final state has been reached.  The initial
transition is taken only by a machine that stands nowhere. -/
structure IsTaken (program : Program) (turn : Turn) : Prop where
  notFinal : turn.before.isFinal = false
  exists_microstep : ∃ (world : World) (initial : Option TransitionId) (events : List Event)
      (after : World), world.status = turn.before ∧ (initial.isSome = true → turn.before = {}) ∧
    world.microstep program initial events = .ok (turn.transitions, after) ∧
    after.generated.toList = turn.generated ∧ after.status = turn.after

end Turn

namespace Attempt

/-- The turn of a microstep, if it is not given up. -/
def turn? (program : Program) (attempt : Attempt) : Option Turn :=
  match attempt.outcome program with
  | .ok (transitions, next) =>
    some ⟨attempt.world.status, transitions, next.generated.toList, next.status⟩
  | .error _ => none

theorem turn?_of_outcome_eq {program : Program} {attempt : Attempt}
    {transitions : List TransitionId} {next : World}
    (outcome : attempt.outcome program = .ok (transitions, next)) :
    attempt.turn? program =
      some ⟨attempt.world.status, transitions, next.generated.toList, next.status⟩ := by
  rw [turn?, outcome]

theorem exists_of_turn? {program : Program} {attempt : Attempt} {turn : Turn}
    (isTurn : attempt.turn? program = some turn) :
    ∃ next, attempt.outcome program = .ok (turn.transitions, next) ∧
      attempt.world.status = turn.before ∧ next.generated.toList = turn.generated ∧
      next.status = turn.after := by
  unfold turn? at isTurn
  split at isTurn
  · next transitions next outcome =>
      cases isTurn
      exact ⟨next, outcome, rfl, rfl, rfl⟩
  · cases isTurn

namespace Course

variable {program : Program} {limit : Nat} {first : Attempt} {done : Macrostep}
  {attempts : List Attempt} {result : Except Failure (Macrostep × World)}

/-- The turns of microsteps begin where the first one does, one after the other, and if none is
given up all end where the last one has ended. -/
theorem areConsecutive (course : Course program limit first done attempts result) :
    Turn.AreConsecutive first.world.status (attempts.filterMap (turn? program)) ∧
      ∀ report after, result = .ok (report, after) →
        after.status = Turn.finish first.world.status (attempts.filterMap (turn? program)) := by
  induction course with
  | final | limited =>
      refine ⟨trivial, fun report after ended => ?_⟩
      cases ended
      rfl
  | @givenUp _ attempt _ _ _ outcome =>
      have noTurn : attempt.turn? program = none := by rw [turn?, outcome]
      rw [List.filterMap_cons_none noTurn]
      exact ⟨trivial, fun _ _ ended => by cases ended⟩
  | last _ outcome =>
      rw [List.filterMap_cons_some (turn?_of_outcome_eq outcome)]
      refine ⟨⟨rfl, trivial⟩, fun report after ended => ?_⟩
      cases ended
      rfl
  | more _ outcome _ _ ih =>
      rw [List.filterMap_cons_some (turn?_of_outcome_eq outcome)]
      exact ⟨⟨rfl, ih.1⟩, ih.2⟩

theorem areTaken (course : Course program limit first done attempts result)
    (nowhere : first.initial.isSome = true → first.world.status = {}) :
    ∀ turn ∈ attempts.filterMap (turn? program), turn.IsTaken program := by
  intro turn member
  obtain ⟨attempt, isAttempt, isTurn⟩ := List.mem_filterMap.1 member
  obtain ⟨next, outcome, before, generated, after⟩ := exists_of_turn? isTurn
  obtain ⟨notFinal, isFirst⟩ := course.of_mem attempt isAttempt
  refine ⟨before ▸ notFinal, attempt.world, attempt.initial, attempt.events, next, before,
    fun isSome => ?_, outcome, generated, after⟩
  rcases isFirst with rfl | isNone
  · exact before ▸ nowhere isSome
  · rw [isNone] at isSome
    cases isSome

end Course

end Attempt

namespace Machine

/-! ## Turns of operations -/

/-- The turns that an operation takes, those of a macrostep that is given up included. -/
def turnsOf (machine : Machine) (operation : Operation) : List Turn :=
  (machine.attemptsOf operation).filterMap (Attempt.turn? machine.program)

def turnsAlong (machine : Machine) : List Operation → List Turn
  | [] => []
  | operation :: rest => machine.turnsOf operation ++ (machine.perform operation).2.turnsAlong rest

section Turns

variable {machine : Machine}

/-- An operation that succeeds leads where its turns lead, and one that fails leaves the machine
where it stood. -/
theorem turnsOf_spec (settled : machine.IsSettled) {operation : Operation}
    (notRestore : ∀ snapshot, operation ≠ .restore snapshot) :
    (Turn.AreConsecutive (machine.statusFor operation) (machine.turnsOf operation) ∧
      ∀ turn ∈ machine.turnsOf operation, turn.IsTaken machine.program) ∧
    ((machine.perform operation).1 = .ok () → (machine.perform operation).2.status =
      Turn.finish (machine.statusFor operation) (machine.turnsOf operation)) ∧
    ((machine.perform operation).1 ≠ .ok () →
      (machine.perform operation).2.status = machine.statusFor operation) := by
  unfold turnsOf
  cases isBegun : machine.macrostepBegun operation with
  | none =>
      have stays := status_perform_of_idle isBegun notRestore
      rw [attemptsOf_of_idle isBegun]
      exact ⟨⟨trivial, fun _ member => absurd member List.not_mem_nil⟩, fun _ => stays,
        fun _ => stays⟩
  | some macrostep =>
      obtain ⟨begun, initial⟩ := macrostep
      obtain ⟨program_eq, -, status_eq, -, nowhere⟩ := begins_of_begun isBegun
      obtain ⟨course, isOutcome⟩ := course_of_begun isBegun
      have opens : (begun.opened initial).world.status = machine.statusFor operation :=
        (World.quiet_opening begun.world begun.program initial).status_eq.trans status_eq
      rw [program_eq] at course
      obtain ⟨consecutive, finishes⟩ := course.areConsecutive
      have taken := course.areTaken fun isSome =>
        opens.trans (status_eq.symm.trans (nowhere settled isSome))
      rw [opens] at consecutive finishes
      refine ⟨⟨consecutive, taken⟩, ?_⟩
      rw [perform_of_macrostepOf isOutcome]
      cases ran : begun.microsteps initial with
      | ok result => exact ⟨fun _ => finishes _ _ ran, fun fails => absurd rfl fails⟩
      | error failure =>
          have rolledBack := World.Hushed.cancelInactive
            { failure.world with status := begun.status } begun.chart
            (begun.status.active begun.chart)
          exact ⟨fun succeeds => (by cases succeeds), fun _ => rolledBack.status_eq.trans status_eq⟩

/-! ## What operations keep -/

section Keeping

variable {Holds : Status → Prop}
  (keeps : ∀ turn : Turn, turn.IsTaken machine.program → Holds turn.before → Holds turn.after)
include keeps

/-- What every turn keeps holds before every turn of an operation and after the
operation, unless a snapshot is restored. -/
theorem keeps_of_perform (fresh : Holds {}) (settled : machine.IsSettled)
    (holds : Holds machine.status) {operation : Operation}
    (notRestore : ∀ snapshot, operation ≠ .restore snapshot) :
    (∀ turn ∈ machine.turnsOf operation, turn.IsTaken machine.program ∧ Holds turn.before) ∧
      Holds (machine.perform operation).2.status := by
  have begins : Holds (machine.statusFor operation) := by
    cases operation with
    | reset => exact fresh
    | _ => exact holds
  obtain ⟨⟨consecutive, taken⟩, finishes, stays⟩ := turnsOf_spec settled notRestore
  obtain ⟨before, last⟩ :=
    consecutive.keeps begins fun turn member => keeps turn (taken turn member)
  refine ⟨fun turn member => ⟨taken turn member, before turn member⟩, ?_⟩
  by_cases succeeds : (machine.perform operation).1 = .ok ()
  · rw [finishes succeeds]
    exact last
  · rw [stays succeeds]
    exact begins

end Keeping

end Turns

end Machine

end Statechart
