import Statechart.Proofs.Machine.Attempts
import Statechart.Proofs.Machine.Services

/-!
# The events that are reported

A macrostep reports the events that its microsteps generate, and these are what the microsteps
process, each one what the one before it has generated.  Only the first one processes events
that are not reported: those that were waiting, and those that tell of services which refused
to be told of them.
-/

namespace Statechart

/-- A report tells of all that microsteps generate, and they process the batch and what they
generate, each one what the one before it has left. -/
structure AreReported (program : Program) (batch : List Event) (attempts : List Attempt)
    (report : Macrostep) : Prop where
  isOk_outcome : ∀ attempt ∈ attempts, (attempt.outcome program).isOk = true
  microsteps_eq : report.microsteps = attempts.length
  events_eq : report.events.toList = attempts.flatMap (Attempt.generated program)
  exists_left : ∃ left, attempts.map Attempt.events ++ [left] =
    batch :: attempts.map (Attempt.generated program)

/-- All that is processed, and what is left over, is the batch and then what is reported. -/
theorem AreReported.exists_append {program : Program} {batch : List Event}
    {attempts : List Attempt} {report : Macrostep}
    (reported : AreReported program batch attempts report) :
    ∃ left, attempts.flatMap Attempt.events ++ left = batch ++ report.events.toList := by
  obtain ⟨left, chained⟩ := reported.exists_left
  refine ⟨left, ?_⟩
  have flat := congrArg List.flatten chained
  rw [List.flatten_append, List.flatten_singleton, List.flatten_cons] at flat
  rwa [reported.events_eq, List.flatMap_def, List.flatMap_def]

theorem areReported_nil (program : Program) (batch : List Event) :
    AreReported program batch [] {} :=
  ⟨fun _ member => (by cases member), rfl, rfl, batch, rfl⟩

theorem areReported_of_course {program : Program} {limit : Nat} {first : Attempt}
    {attempts : List Attempt} {report : Macrostep} {after : World}
    (course : Attempt.Course program limit first {} attempts (.ok (report, after))) :
    AreReported program first.events attempts report := by
  obtain ⟨areOk, count, told, left⟩ := course.reports
  exact ⟨areOk, count.trans (Nat.zero_add _), told, left⟩

namespace World

/-! ## The batch of the first microstep -/

/-- Some running service would refuse some event of a batch that is forwarded to it. -/
def MayRefuse (chart : Chart) (services : Services) (batch : List Event) : Prop :=
  ∃ node running earlier, ∃ event ∈ batch, services.running.find? node = some running ∧
    (running.service.respond earlier
      ⟨running.number, chart.idOf node, .forward event⟩).fault ≠ none

/-- A step that generates only events that tell of refusals, and none unless there may be one. -/
def TellsOfRefusals (Refusable : Prop) (before after : World) : Prop :=
  ∃ refusals, after.generated.toList = before.generated.toList ++ refusals ∧
    (∀ event ∈ refusals, event = .ofMachine "error.communication") ∧
    (refusals ≠ [] → Refusable)

namespace TellsOfRefusals

variable {Refusable : Prop} {first second third : World}

theorem of_eq (same : second.generated = first.generated) :
    TellsOfRefusals Refusable first second :=
  ⟨[], by rw [same, List.append_nil], fun _ member => (by cases member),
    fun notNone => absurd rfl notNone⟩

theorem trans (left : TellsOfRefusals Refusable first second)
    (right : TellsOfRefusals Refusable second third) :
    TellsOfRefusals Refusable first third := by
  obtain ⟨earlier, isSecond, ofEarlier, mayEarlier⟩ := left
  obtain ⟨later, isThird, ofLater, mayLater⟩ := right
  refine ⟨earlier ++ later, ?_, fun event member => ?_, fun notNone => ?_⟩
  · rw [isThird, isSecond, List.append_assoc]
  · exact (List.mem_append.1 member).elim (ofEarlier event) (ofLater event)
  · by_cases isNone : earlier = []
    · exact mayLater fun alsoNone => notNone (by rw [isNone, alsoNone, List.append_nil])
    · exact mayEarlier isNone

theorem forwardEvent {chart : Chart} {services : Services} {node : NodeId}
    {running : RunningService} (isRunning : services.running.find? node = some running)
    (world : World) {batch : List Event} {event : Event} (among : event ∈ batch) :
    TellsOfRefusals (MayRefuse chart services batch) world
      (World.forwardEvent (chart.idOf node) running world event) := by
  unfold World.forwardEvent
  split
  · next after result =>
      obtain ⟨-, rfl⟩ := Prod.mk.inj result
      exact .of_eq rfl
  · next fault after result =>
      obtain ⟨refuses, rfl⟩ := Prod.mk.inj result
      refine ⟨[.ofMachine "error.communication"], ?_, fun other member =>
        List.mem_singleton.1 member, fun _ =>
          ⟨node, running, world.services.calls.toList, event, among, isRunning, ?_⟩⟩
      · exact Array.toList_push
      · exact fun accepts => by cases refuses.symm.trans accepts

theorem forwardAll (world : World) (chart : Chart) (events : List Event) :
    TellsOfRefusals (MayRefuse chart world.services events) world
      (world.forwardAll chart events) := by
  refine List.foldlRecOn (motive := TellsOfRefusals _ world) _ _ (.of_eq rfl)
    fun next tells entry member => tells.trans ?_
  have isRunning := (Entries.find?_eq_some_iff world.services.running.nodup_keys).2 member
  exact List.foldlRecOn (motive := TellsOfRefusals _ next) _ _ (.of_eq rfl)
    fun asked tells _ among =>
      tells.trans (forwardEvent isRunning asked (List.mem_of_mem_filter among))

end TellsOfRefusals

/-- The first microstep processes what was waiting, and then what tells of refusals. -/
theorem opening_eq_append (world : World) (program : Program) (initial : Option TransitionId) :
    ∃ refusals, (world.opening program initial).1 = world.drained initial ++ refusals ∧
      (∀ event ∈ refusals, event = .ofMachine "error.communication") ∧
      (refusals ≠ [] → MayRefuse program.chart world.services (world.drained initial)) := by
  have forwards : ∀ (before : World) (batch : List Event), before.services = world.services →
      ∃ refusals, (before.forwardBatch program batch).1 = batch ++ refusals ∧
        (∀ event ∈ refusals, event = .ofMachine "error.communication") ∧
        (refusals ≠ [] → MayRefuse program.chart world.services batch) := by
    intro before batch same
    obtain ⟨refusals, generated, tell, may⟩ :=
      TellsOfRefusals.forwardAll { before with generated := #[] } program.chart batch
    refine ⟨refusals, ?_, tell, same ▸ may⟩
    rw [forwardBatch, generated]
    rfl
  unfold opening drained
  split
  · exact forwards world [] rfl
  · exact forwards { world with inbox := [] } world.inbox rfl

end World

namespace Machine

section Reports

variable {machine after : Machine} {report : Macrostep}

/-- The first microstep of the macrostep that an operation begins processes what is handed to the
macrostep, and then what tells of refusals. -/
theorem events_opened {operation : Operation} {begun : Machine} {initial : Option TransitionId}
    (isBegun : machine.macrostepBegun operation = some (begun, initial)) :
    ∃ refusals, (begun.opened initial).events = machine.handedBy operation ++ refusals ∧
      (∀ event ∈ refusals, event = .ofMachine "error.communication") ∧
      (refusals ≠ [] →
        World.MayRefuse machine.chart machine.world.services (machine.handedBy operation)) := by
  have begins := begins_of_begun isBegun
  have isHanded : machine.handedBy operation = begun.world.drained initial := by
    rw [handedBy, isBegun]
  obtain ⟨refusals, opens, tell, may⟩ := begun.world.opening_eq_append begun.program initial
  rw [isHanded]
  refine ⟨refusals, opens, tell, fun notNone => ?_⟩
  have refuses := may notNone
  rcases begins.services_or_inbox with same | noneWait
  · rwa [begins.program_eq, same] at refuses
  · -- What is reset has nothing to forward.
    obtain ⟨_, _, _, event, among, -⟩ := refuses
    rw [World.drained, noneWait, ite_self] at among
    cases among

/-- When a machine is started, for the first time or anew, takes a step or is told of an event,
and yields a report, then every microstep that has been begun has come to an end, and each
processes what the one before it has generated.  All that they process is, in this order, what was
handed to the macrostep, events that tell of services which refused to be told of that, and the
events of the report, of which only those that the last microstep has generated are left over. -/
theorem generated_events_are_reported {operation : Operation}
    (done : machine.macrostepOf operation = some (.ok report, after)) :
    ∃ refusals, (∀ event ∈ refusals, event = .ofMachine "error.communication") ∧
      (refusals ≠ [] →
        World.MayRefuse machine.chart machine.world.services (machine.handedBy operation)) ∧
      AreReported machine.program (machine.handedBy operation ++ refusals)
        (machine.attemptsOf operation) report ∧
      ∃ left, (machine.attemptsOf operation).flatMap Attempt.events ++ left =
        machine.handedBy operation ++ refusals ++ report.events.toList := by
  cases isBegun : machine.macrostepBegun operation with
  | none =>
      obtain rfl := report_of_idle isBegun done
      have reported := areReported_nil machine.program (machine.handedBy operation ++ [])
      rw [attemptsOf_of_idle isBegun]
      exact ⟨[], fun _ member => (by cases member), fun notNone => absurd rfl notNone, reported,
        reported.exists_append⟩
  | some macrostep =>
      obtain ⟨begun, initial⟩ := macrostep
      obtain ⟨course, isOutcome⟩ := course_of_begun isBegun
      obtain ⟨refusals, opens, tell, may⟩ := events_opened isBegun
      cases ran : begun.microsteps initial with
      | error failure =>
          rw [ran, done] at isOutcome
          cases isOutcome
      | ok result =>
          obtain ⟨told, world⟩ := result
          rw [ran, done] at isOutcome
          cases isOutcome
          rw [ran, (begins_of_begun isBegun).program_eq] at course
          have reported := areReported_of_course course
          rw [opens] at reported
          exact ⟨refusals, tell, may, reported, reported.exists_append⟩

end Reports

/-! ## An event that is not reported -/

/-- Somebody who is busy until told that the job does not listen. -/
def busyness : Definition :=
  { states := [
      { id := some "busy", invocation := some { service := "job", source := some "task" },
        transitions := [{ event := some "error.communication", target := some "broken" }] },
      { id := some "broken" }] }

/-- A service that refuses to be told of anything. -/
def deafness : Service :=
  { respond := fun _ call =>
      match call.request with
      | .forward _ => { fault := some (.forward "deaf") }
      | _ => {} }

def busyMachine (operations : List Operation) : Machine :=
  (preparedOrEmpty busyness {} {} [("job", deafness)]).performAll operations

/-- The second microstep of a start processes the entry that the first one has generated, and
the start reports it. -/
theorem entry_is_reported :
    ∃ report after, (busyMachine []).macrostepOf .start = some (.ok report, after) ∧
      AreReported (busyMachine []).program [] ((busyMachine []).attemptsOf .start) report ∧
      ((busyMachine []).attemptsOf .start).map (fun attempt => attempt.events.map Event.name) =
        [[], ["busy.entry"]] ∧
      report.events.toList.map Event.name = ["busy.entry"] := by
  have processed : ((busyMachine []).attemptsOf .start).map (fun attempt =>
      attempt.events.map Event.name) = [[], ["busy.entry"]] := by
    decide +kernel
  have told : ((busyMachine []).start.1.toOption.map fun report =>
      report.events.toList.map Event.name) = some ["busy.entry"] := by
    decide +kernel
  have nothingRuns : (busyMachine []).world.services.running.keys = [] := by decide +kernel
  have nothingWaits : (busyMachine []).handedBy .start = [] := by
    have isSome : (busyMachine []).chart.root.initial.isSome = true := by decide +kernel
    have notStarted : (busyMachine []).isStarted = false := by decide +kernel
    rw [handedBy, macrostepBegun, startBegun, notStarted, if_neg Bool.false_ne_true]
    exact if_pos isSome
  cases outcome : (busyMachine []).start with
  | mk result after =>
      rw [outcome] at told
      cases result with
      | error fault => cases told
      | ok report =>
          have done : (busyMachine []).macrostepOf .start = some (.ok report, after) :=
            congrArg some outcome
          obtain ⟨refusals, -, may, reported, -⟩ := generated_events_are_reported done
          have none : refusals = [] := by
            by_contra notNone
            obtain ⟨node, running, _, _, _, isRunning, -⟩ := may notNone
            have runs := NodeMap.contains_of_find? isRunning
            rw [NodeMap.contains_iff, nothingRuns] at runs
            cases runs
          rw [nothingWaits, none, List.append_nil] at reported
          exact ⟨report, after, done, reported, processed, Option.some.inj told⟩

/-- Whoever is told of something that its service refuses to be told of does process an event
that tells of the refusal, but does not report it. -/
theorem refusal_is_not_reported :
    ComesAbout busyness (busyMachine [.start]) ∧
      ∃ report after, (busyMachine [.start]).fire { name := "poke" } = (.ok report, after) ∧
        ((busyMachine [.start]).attemptsOf (.fire { name := "poke" })).map (fun attempt =>
          attempt.events.map Event.name) =
            [["poke", "error.communication"], ["busy.exit", "broken.entry"]] ∧
        report.events.toList.map Event.name = ["busy.exit", "broken.entry"] := by
  have prepared : ComesAbout busyness (busyMachine []) :=
    .prepared (prepare_eq_ok (by decide +kernel))
  have processed : ((busyMachine [.start]).attemptsOf (.fire { name := "poke" })).map
      (fun attempt => attempt.events.map Event.name) =
        [["poke", "error.communication"], ["busy.exit", "broken.entry"]] := by
    decide +kernel
  have told : (((busyMachine [.start]).fire { name := "poke" }).1.toOption.map fun report =>
      report.events.toList.map Event.name) = some ["busy.exit", "broken.entry"] := by
    decide +kernel
  refine ⟨prepared.performAll (by simp), ?_⟩
  cases outcome : (busyMachine [.start]).fire { name := "poke" } with
  | mk result after =>
      rw [outcome] at told
      cases result with
      | error fault => cases told
      | ok report => exact ⟨report, after, rfl, processed, Option.some.inj told⟩

end Machine

end Statechart
