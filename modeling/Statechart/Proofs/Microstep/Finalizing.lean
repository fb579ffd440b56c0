import Statechart.Proofs.Machine.Reachable
import Statechart.Proofs.Microstep.ExposedEvent
import Statechart.Proofs.World.Services

/-!
# Finalizing

Before a microstep chooses transitions, states finalize the events that their services await.
Each of these states runs its block once, and the block sees the first event of the batch.  So
every awaited event is finalized as it should be if it comes first and no later one is awaited;
any other awaited event is not seen by the block.
-/

namespace Statechart

namespace World

/-- The actions with which a node finalizes events. -/
def finalizeBlock (chart : Chart) (node : NodeId) : List Action :=
  ((chart.node node).invocation.map Invocation.finalize).getD []

/-- Whether the service that runs at a node awaits an event. -/
def awaitsEvent (world : World) (chart : Chart) (node : NodeId) (event : Event) : Bool :=
  (world.services.running.find? node).any fun running =>
    running.service.awaits world.services.calls.toList (chart.idOf node) event

/-- What a microstep does after states have finalized. -/
def proceed (world : World) (program : Program) (initial : Option TransitionId)
    (events : List Event) : Except Failure (List TransitionId × World) :=
  let chart := program.chart
  let (transitions, world) := world.choose program initial events
  match chart.resolve world.status.history world.status.leaves transitions with
  | .error fault => .error (world.giveUp chart fault)
  | .ok resolution =>
    let world := world.carryOut chart events transitions resolution
    .ok (transitions, world.startPending chart program.registry events (world.active program))

/-- Lets each state finalize the events that its service awaits one after the other, each as
the only event. -/
def finalizeEach (world : World) (chart : Chart) (events : List Event) (active : NodeSet) :
    World :=
  (world.finalizing chart events).foldl (fun after node =>
    (events.filter (world.awaitsEvent chart node)).foldl (fun after event =>
      after.run ⟨chart, node, [event], active⟩ (finalizeBlock chart node)) after) world

variable {world : World} {chart : Chart} {events : List Event}

theorem awaitsEvent_iff {node : NodeId} {event : Event} :
    world.awaitsEvent chart node event = true ↔
      ∃ running, world.services.running.find? node = some running ∧
        running.service.awaits world.services.calls.toList (chart.idOf node) event = true := by
  rw [awaitsEvent, Option.any_eq_true]

theorem finalizeBlock_ne_nil_iff {node : NodeId} :
    finalizeBlock chart node ≠ [] ↔ ∃ invocation, (chart.node node).invocation = some invocation ∧
      invocation.finalize ≠ [] := by
  cases isInvocation : (chart.node node).invocation <;> simp [finalizeBlock, isInvocation]

/-- The states that finalize are those that have something to run for it and whose service
awaits some event of the batch. -/
theorem mem_finalizing {node : NodeId} :
    node ∈ world.finalizing chart events ↔
      (∃ event ∈ events, world.awaitsEvent chart node event = true) ∧
        finalizeBlock chart node ≠ [] := by
  refine (Chart.mem_sortOrdered _).trans (List.mem_map.trans ?_)
  constructor
  · rintro ⟨⟨other, running⟩, member, rfl⟩
    obtain ⟨isEntry, conditions⟩ := List.mem_filter.1 member
    obtain ⟨awaits, hasBlock⟩ := Bool.and_eq_true_iff.1 conditions
    obtain ⟨event, isEvent, awaited⟩ := List.any_eq_true.1 awaits
    have isRunning := (Entries.find?_eq_some_iff world.services.running.nodup_keys).2 isEntry
    refine ⟨⟨event, isEvent, awaitsEvent_iff.2 ⟨running, isRunning, awaited⟩⟩,
      finalizeBlock_ne_nil_iff.2 ?_⟩
    split at hasBlock
    · next invocation isInvocation => exact ⟨invocation, isInvocation, by simpa using hasBlock⟩
    · cases hasBlock
  · rintro ⟨⟨event, isEvent, awaits⟩, hasBlock⟩
    obtain ⟨running, isRunning, awaited⟩ := awaitsEvent_iff.1 awaits
    obtain ⟨invocation, isInvocation, notEmpty⟩ := finalizeBlock_ne_nil_iff.1 hasBlock
    have isEntry := (Entries.find?_eq_some_iff world.services.running.nodup_keys).1 isRunning
    refine ⟨(node, running), List.mem_filter.2 ⟨isEntry, Bool.and_eq_true_iff.2 ⟨?_, ?_⟩⟩, rfl⟩
    · exact List.any_eq_true.2 ⟨event, isEvent, awaited⟩
    · rw [isInvocation]
      simpa using notEmpty

theorem nodup_finalizing : (world.finalizing chart events).Nodup := by
  refine Chart.nodup_sortOrdered _ ?_
  exact world.services.running.nodup_keys.sublist (List.filter_sublist.map Prod.fst)

theorem ordered_finalizing :
    (world.finalizing chart events).Pairwise
      (fun a b => (chart.node a).order ≤ (chart.node b).order) := by
  refine (Chart.pairwise_sortOrdered chart.precedes (fun a b => ?_) (fun a b c => ?_) _).imp
    fun precedes => of_decide_eq_true precedes
  · simpa [Chart.precedes] using Nat.le_total _ _
  · simpa [Chart.precedes] using Nat.le_trans

/-- A state that finalizes runs its block once, for the first event. -/
theorem finalizeAt_eq (chart : Chart) (events : List Event) (active : NodeSet) (world : World)
    (node : NodeId) : finalizeAt chart events active world node =
      world.run ⟨chart, node, firstOnly events, active⟩ (finalizeBlock chart node) := by
  have narrowed := run_narrow world ⟨chart, node, events, active⟩ (finalizeBlock chart node)
  refine Eq.trans ?_ narrowed.symm
  unfold finalizeAt finalizeBlock
  cases (chart.node node).invocation with
  | none => rw [Option.map_none, Option.getD_none, run, runBlock]
  | some invocation => rfl

/-- Where no event but the first is awaited, the first is finalized by all whose service awaits
it, and every awaited event is finalized so. -/
theorem finalizeAll_eq_finalizeEach (active : NodeSet)
    (onlyFirst : ∀ node ∈ world.finalizing chart events, ∀ event ∈ events.tail,
      world.awaitsEvent chart node event = false) :
    world.finalizeAll chart events active = world.finalizeEach chart events active := by
  refine List.foldl_ext _ _ world fun after node member => ?_
  obtain ⟨⟨event, isEvent, awaits⟩, -⟩ := mem_finalizing.1 member
  rw [finalizeAt_eq]
  cases events with
  | nil => cases isEvent
  | cons first later =>
      have others : later.filter (world.awaitsEvent chart node) = [] := by
        rw [List.filter_eq_nil_iff]
        intro other isLater
        simp [onlyFirst node member other isLater]
      have awaitsFirst : world.awaitsEvent chart node first = true := by
        rcases List.mem_cons.1 isEvent with rfl | isLater
        · exact awaits
        · rw [onlyFirst node member event isLater] at awaits
          cases awaits
      rw [List.filter_cons_of_pos awaitsFirst, others]
      rfl

/-- A microstep begins by letting states finalize: just those whose service awaits some event of
the batch, in document order.  Each runs its block once and sees the first event, so if no other
event is awaited, then each runs its block once for every awaited event and sees that event. -/
theorem finalize_runs_once (world : World) (program : Program) (initial : Option TransitionId)
    (events : List Event) :
    let chart := program.chart
    let begun : World := { world with generated := #[] }
    let active := world.active program
    let nodes := begun.finalizing chart events
    (∀ node, node ∈ nodes ↔ ∃ running invocation,
      world.services.running.find? node = some running ∧
        (chart.node node).invocation = some invocation ∧ invocation.finalize ≠ [] ∧
        ∃ event ∈ events,
          running.service.awaits world.services.calls.toList (chart.idOf node) event = true) ∧
    nodes.Nodup ∧ nodes.Pairwise (fun a b => (chart.node a).order ≤ (chart.node b).order) ∧
    world.microstep program initial events =
      (nodes.foldl (fun after node =>
        after.run ⟨chart, node, firstOnly events, active⟩ (finalizeBlock chart node))
        begun).proceed program initial events ∧
    ((∀ node ∈ nodes, ∀ event ∈ events.tail, begun.awaitsEvent chart node event = false) →
      world.microstep program initial events =
        (begun.finalizeEach chart events active).proceed program initial events) := by
  intro chart begun active nodes
  have isStep : world.microstep program initial events =
      (begun.finalizeAll chart events active).proceed program initial events := rfl
  refine ⟨fun node => ?_, nodup_finalizing, ordered_finalizing, ?_, fun onlyFirst => ?_⟩
  · rw [mem_finalizing, finalizeBlock_ne_nil_iff]
    constructor
    · rintro ⟨⟨event, isEvent, awaits⟩, invocation, isInvocation, notEmpty⟩
      obtain ⟨running, isRunning, awaited⟩ := awaitsEvent_iff.1 awaits
      exact ⟨running, invocation, isRunning, isInvocation, notEmpty, event, isEvent, awaited⟩
    · rintro ⟨running, invocation, isRunning, isInvocation, notEmpty, event, isEvent, awaited⟩
      exact ⟨⟨event, isEvent, awaitsEvent_iff.2 ⟨running, isRunning, awaited⟩⟩, invocation,
        isInvocation, notEmpty⟩
  · rw [isStep, show finalizeAll begun chart events active =
      nodes.foldl (finalizeAt chart events active) begun from rfl]
    simp only [funext fun after => funext fun node => finalizeAt_eq chart events active after node]
  · rw [isStep, finalizeAll_eq_finalizeEach active onlyFirst]

/-! ## A block that sees another event -/

/-- An office that keeps the result of its work. -/
def office : Definition :=
  { states := [
      { id := some "working", invocation := some {
          service := "job", source := some "task",
          finalize := [.assign "ctx.result" "_event.data"] } }] }

def officeAfter (operations : List Machine.Operation) : Machine :=
  (Machine.preparedOrEmpty office {} {} [("job", { respond := fun _ _ => {} })]).performAll
    operations

/-- What the job of the office sends when it is done. -/
def rightResult : Event :=
  { name := "working.invoke.done", data := .string "right" }

/-- What somebody else sends to the office. -/
def wrongResult : Event :=
  { name := "other", data := .string "wrong" }

/-- The result that a world keeps. -/
def keptResult (world : World) : Option String :=
  (world.model.context.field? "result").bind Json.Value.string?

/-- A result that comes alone is kept. -/
theorem lone_result_is_kept :
    let told := officeAfter [.start, .push rightResult]
    let opened := told.world.opening told.program none
    let begun : World := { opened.2 with generated := #[] }
    begun.finalizing told.chart opened.1 = [1] ∧
      (∀ node ∈ begun.finalizing told.chart opened.1, ∀ event ∈ opened.1.tail,
        begun.awaitsEvent told.chart node event = false) ∧
      opened.2.microstep told.program none opened.1 =
        (begun.finalizeEach told.chart opened.1
          (opened.2.active told.program)).proceed told.program none opened.1 ∧
      keptResult (begun.finalizeEach told.chart opened.1 (opened.2.active told.program)) =
        some "right" := by
  intro told opened begun
  have onlyFirst : ∀ node ∈ begun.finalizing told.chart opened.1, ∀ event ∈ opened.1.tail,
      begun.awaitsEvent told.chart node event = false := by
    decide +kernel
  obtain ⟨-, -, -, -, isEach⟩ := finalize_runs_once opened.2 told.program none opened.1
  exact ⟨by decide +kernel, onlyFirst, isEach onlyFirst, by decide +kernel⟩

/-- A result that comes after another event is lost: the block that is run for the result sees
the other event. -/
theorem finalize_need_not_see_awaited_event :
    Machine.ComesAbout office (officeAfter [.start, .push wrongResult, .push rightResult]) ∧
      let told := officeAfter [.start, .push wrongResult, .push rightResult]
      let opened := told.world.opening told.program none
      let begun : World := { opened.2 with generated := #[] }
      opened.1.map Event.name = ["other", "working.invoke.done"] ∧
        begun.finalizing told.chart opened.1 = [1] ∧
        opened.1.map (begun.awaitsEvent told.chart 1) = [false, true] ∧
        keptResult (begun.finalizeEach told.chart opened.1 (opened.2.active told.program)) =
          some "right" ∧
        ∃ transitions after,
          opened.2.microstep told.program none opened.1 = .ok (transitions, after) ∧
          after.services.running.contains 1 = true ∧ keptResult after = some "wrong" := by
  have prepared : Machine.ComesAbout office (officeAfter []) :=
    .prepared (Machine.prepare_eq_ok (by decide +kernel))
  refine ⟨prepared.performAll (by simp), ?_⟩
  intro told opened begun
  have kept : (opened.2.microstep told.program none opened.1).toOption.map (fun done =>
      (done.2.services.running.contains 1, keptResult done.2)) = some (true, some "wrong") := by
    decide +kernel
  refine ⟨by decide +kernel, by decide +kernel, by decide +kernel, by decide +kernel, ?_⟩
  cases outcome : opened.2.microstep told.program none opened.1 with
  | error failure =>
      rw [outcome] at kept
      cases kept
  | ok done =>
      rw [outcome] at kept
      obtain ⟨runs, keeps⟩ := Prod.mk.inj (Option.some.inj kept)
      exact ⟨done.1, done.2, rfl, runs, keeps⟩

end World

end Statechart
