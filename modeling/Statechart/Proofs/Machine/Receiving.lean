import Statechart.Proofs.Machine.Reporting
import Statechart.Proofs.World.Inbox

/-!
# What a macrostep does with the inbox

A macrostep that begins without an initial transition takes all that waits in the inbox.  From
there on, until it ends or is given up, the inbox only receives what services send.
-/

namespace Statechart

open Services (callsSince)

namespace World

section Receives

variable {program : Program} {forwarded : List Event} (finds : program.FindsServices)
include finds

namespace Receives

/-! ## One microstep -/

theorem exitState (events : List Event) (active : NodeSet) (world : World) (node : NodeId) :
    Receives program forwarded world (World.exitState program.chart events active world node) := by
  have cancelled : Receives program forwarded world _ := cancelService finds world node
  have exited := cancelled.trans
    (Inward.run _ ⟨program.chart, node, events, active⟩ (program.chart.node node).onExit).receives
  unfold World.exitState
  dsimp only
  split
  · exact exited.trans (.of_still id rfl rfl rfl)
  · exact exited.trans (.of_still id rfl rfl rfl)

theorem carryOut (world : World) (events : List Event) (transitions : List TransitionId)
    (resolution : Resolution) :
    Receives program forwarded world
      (world.carryOut program.chart events transitions resolution) := by
  let activeBefore := program.chart.active world.status.leaves
  let activeAfter := program.chart.active resolution.after
  let exited := resolution.exited.foldl (World.exitState program.chart events activeBefore) world
  let taken := transitions.foldl (takeTransition program.chart events activeBefore) exited
  have exits : Receives program forwarded world exited :=
    .foldl (fun world node _ => exitState finds events activeBefore world node) world
  have takes : Inward exited taken :=
    .foldl (fun world id => .takeTransition program.chart events activeBefore world id) _ _
  have enters : Inward taken (resolution.entered.foldl
      (enterState program.chart events activeAfter resolution) taken) :=
    .foldl (fun world node => .enterState program.chart events activeAfter resolution world node)
      _ _
  have leads : Inward exited (world.carryOut program.chart events transitions resolution) := by
    unfold World.carryOut
    exact (takes.trans enters).trans (.modifyStatus _ _)
  exact exits.trans leads.receives

/-- A microstep forwards nothing, also if it is given up. -/
theorem microstep (world : World) (initial : Option TransitionId) (events : List Event) :
    Receives program forwarded world (worldAfter (world.microstep program initial events)) := by
  let fresh : World := { world with generated := #[] }
  let asked := fresh.finalizeAll program.chart events (fresh.active program)
  have asks : Receives program forwarded world asked := by
    have clears : Inward world fresh := ⟨rfl, rfl, id⟩
    exact (clears.trans (.finalizeAll fresh program.chart events _)).receives
  have chooses := asks.trans (Inward.choose asked program initial events).receives
  unfold World.microstep
  dsimp only
  split
  · next fault failed => exact chooses.trans (Inward.giveUp _ program.chart fault).receives
  · next resolution resolved =>
      have carries := chooses.trans
        (carryOut finds _ events (asked.choose program initial events).1 resolution)
      exact carries.trans
        (startPending finds events (program.chart.root_notMem_active _) _)

end Receives

/-! ## Taking what waits -/

/-- A world after a macrostep has taken what it takes from the inbox. -/
def taking (world : World) (initial : Option TransitionId) : World :=
  if initial.isSome then world else { world with inbox := [] }

omit finds in
theorem drained_append_taking (world : World) (initial : Option TransitionId) :
    world.drained initial ++ (world.taking initial).inbox = world.inbox := by
  unfold drained taking
  split
  · rfl
  · exact List.append_nil _

omit finds in
theorem services_taking (world : World) (initial : Option TransitionId) :
    (world.taking initial).services = world.services ∧
      (world.taking initial).model = world.model := by
  unfold taking
  split <;> exact ⟨rfl, rfl⟩

theorem receives_opening (world : World) (initial : Option TransitionId) :
    Receives program (world.drained initial) (world.taking initial)
      (world.opening program initial).2 := by
  unfold opening drained taking forwardBatch
  split
  · have clears : Inward world { world with generated := #[] } := ⟨rfl, rfl, id⟩
    exact clears.receives.trans (.forwardAll finds _)
  · have clears : Inward { world with inbox := [] }
      { world with inbox := [], generated := #[] } := ⟨rfl, rfl, id⟩
    exact clears.receives.trans (.forwardAll finds _)

end Receives

/-! ## Cancelling one service -/

/-- The event that tells of the service of a node that fails to be cancelled. -/
def refusals (world : World) (chart : Chart) (node : NodeId) : List Event :=
  match world.services.running.find? node with
  | none => []
  | some running =>
    let state := chart.idOf node
    match (running.service.respond world.services.calls.toList
        ⟨running.number, state, .cancel⟩).fault with
    | none => []
    | some _ => [.ofMachine (servicePrefix state ++ "cancel.failed")]

theorem generated_cancelService (chart : Chart) (world : World) (node : NodeId) :
    (cancelService chart world node).generated.toList =
      world.generated.toList ++ world.refusals chart node := by
  unfold cancelService refusals
  dsimp only
  cases world.services.running.find? node with
  | none => exact (List.append_nil _).symm
  | some running =>
      dsimp only
      split
      · next after called =>
          obtain ⟨accepts, rfl⟩ := Prod.mk.inj called
          rw [accepts]
          exact (List.append_nil _).symm
      · next fault after called =>
          obtain ⟨refuses, rfl⟩ := Prod.mk.inj called
          rw [refuses]
          exact Array.toList_push

theorem foldl_post (world : World) (events : List Event) :
    events.foldl post world = { world with inbox := world.inbox ++ events } := by
  induction events generalizing world with
  | nil => rw [List.append_nil]; rfl
  | cons event rest ih =>
      rw [List.foldl_cons, ih]
      simp only [post, List.append_assoc, List.singleton_append]

end World

/-- A macrostep, also if it is given up, takes from the inbox when it begins and no more after
that: until each of its microsteps begins, and until it ends, the inbox only receives what
services send. -/
theorem Machine.receives_of_course {machine : Machine} (finds : machine.program.FindsServices)
    {limit : Nat} {initial : Option TransitionId} {attempts : List Attempt}
    {result : Except Failure (Macrostep × World)}
    (course : Attempt.Course machine.program limit (machine.opened initial) {} attempts result) :
    (∀ attempt ∈ attempts, World.Receives machine.program (machine.world.drained initial)
      (machine.world.taking initial) attempt.world) ∧
    World.Receives machine.program (machine.world.drained initial) (machine.world.taking initial)
      (machine.conclude result).2.world := by
  have opens : World.Receives machine.program _ _ (machine.opened initial).world :=
    World.receives_opening finds machine.world initial
  obtain ⟨begins, ends⟩ := course.related
    (World.Receives machine.program (machine.world.drained initial)) .refl
    (fun _ _ _ => .of_still id rfl rfl rfl) (fun _ _ _ => .trans)
    fun attempt _ => World.Receives.microstep finds attempt.world attempt.initial attempt.events
  refine ⟨fun attempt member => opens.trans (begins attempt member), ?_⟩
  have runs := opens.trans ends
  cases result with
  | ok result => exact runs
  | error failure =>
      have restores : World.Inward failure.world { failure.world with status := machine.status } :=
        ⟨rfl, rfl, id⟩
      exact (runs.trans restores.receives).trans (.cancelInactive finds _ _)

end Statechart
