import Statechart.Fault
import Statechart.Microstep.Execution
import Statechart.Microstep.Selection

/-!
# Macrosteps

A macrostep takes a batch of events and runs microsteps until one finds
nothing to do, a top-level final state has been entered, or a limit is
reached.  The events that a microstep generates are the batch of the next one.
-/

namespace Statechart

/-- What a macrostep did. -/
structure Macrostep where
  /-- How many microsteps ran, the last one that found nothing to do included. -/
  microsteps : Nat := 0
  /-- The events generated by the microsteps, in order. -/
  events : Array Event := #[]
deriving Inhabited

/-- A world in which a macrostep was given up, and why. -/
structure Failure where
  world : World
  fault : Fault

/-- What does not change while a machine runs. -/
structure Program where
  chart : Chart
  registry : Registry
deriving Inhabited

namespace World

def active (world : World) (program : Program) : NodeSet :=
  world.status.active program.chart

/-- Reports the rules that a configuration breaks. -/
def reportViolations (world : World) (chart : Chart)
    (violations : List (NodeId × Chart.Violation)) : World :=
  violations.foldl (fun world (node, violation) =>
    world.report .illegalConfiguration violation.message (chart.idOf node)) world

/-- Gives up a microstep that cannot be resolved. -/
def giveUp (world : World) (chart : Chart) : ResolutionFault → Failure
  | .illegal violations =>
    ⟨world.reportViolations chart violations,
      .illegalConfiguration (violations.map Prod.snd)⟩
  | .endless => ⟨world, .endlessExpansion⟩

/-- The transitions to take: the initial one, or those selected. -/
def choose (world : World) (program : Program) (initial : Option TransitionId)
    (events : List Event) : List TransitionId × World :=
  match initial with
  | some id => ([id], world)
  | none => world.select program.chart events

/-- Runs one microstep for a batch of events.  Yields the transitions taken; the
events generated stay in the world. -/
def microstep (world : World) (program : Program) (initial : Option TransitionId)
    (events : List Event) : Except Failure (List TransitionId × World) :=
  let chart := program.chart
  let world := { world with generated := #[] }
  let world := world.finalizeAll chart events (world.active program)
  let (transitions, world) := world.choose program initial events
  match chart.resolve world.status.history world.status.leaves transitions with
  | .error fault => .error (world.giveUp chart fault)
  | .ok resolution =>
    let world := world.carryOut chart events transitions resolution
    .ok (transitions, world.startPending chart program.registry events (world.active program))

/-- Runs microsteps, at most as many as remain, after those that `done` tells of. -/
def microsteps (program : Program) : Nat → World → Option TransitionId → List Event → Macrostep →
    Except Failure (Macrostep × World)
  | remaining, world, initial, events, done =>
    if world.status.isFinal then
      .ok (done, world)
    else
      match remaining with
      | 0 =>
        .ok (done, world.report .microstepLimit s!"stopped after {done.microsteps} microsteps"
          (program.chart.idOf rootId))
      | remaining + 1 =>
        match world.microstep program initial events with
        | .error failure => .error failure
        | .ok (transitions, world) =>
          let generated := world.generated.toList
          let done : Macrostep := ⟨done.microsteps + 1, done.events ++ generated⟩
          let world := world.observe
            (.microstep done.microsteps transitions.length generated.length)
          if transitions.isEmpty && generated.isEmpty then
            .ok (done, world)
          else
            microsteps program remaining world none generated done

/-- Forwards a batch of external events to the running services.  Yields the
batch with the events that tell of failures after it. -/
def forwardBatch (world : World) (program : Program) (batch : List Event) : List Event × World :=
  let world := { world with generated := #[] }
  let world := world.forwardAll program.chart batch
  (batch ++ world.generated.toList, world)

/-- Puts the configuration, the history and the done flags back, and cancels the
services that no longer have an active state. -/
def rollBack (world : World) (program : Program) (saved : Status) : World :=
  { world with status := saved }.cancelInactive program.chart (saved.active program.chart)

/-- Runs a macrostep: with an initial transition it takes no events from the
inbox, otherwise it takes all that wait.  If it has to be given up, the machine
stands where it stood before. -/
def macrostep (world : World) (program : Program) (limit : Nat) (initial : Option TransitionId) :
    Except Failure (Macrostep × World) :=
  let saved := world.status
  let (batch, world) :=
    if initial.isSome then ([], world) else (world.inbox, { world with inbox := [] })
  let (events, world) := world.forwardBatch program batch
  match microsteps program limit world initial events {} with
  | .ok result => .ok result
  | .error failure => .error { failure with world := failure.world.rollBack program saved }

end World

end Statechart
