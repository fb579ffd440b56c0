import Statechart.Proofs.Machine.Run
import Statechart.Proofs.Microstep.Progress
import Statechart.Proofs.World.Services

/-!
# The services of the active states

A microstep takes the exited states out of the services and starts those of the active
states that have none.  Since no state leaves the configuration unless it is exited, only
active states are served afterwards, and of these all that invoke a service.
-/

namespace Statechart

namespace Services

/-- Only active states are served, each by a service that is either running or suppressed. -/
structure AreWithin (services : Services) (active : NodeSet) : Prop where
  apart : services.AreApart
  isActive : ∀ node, services.IsServed node → node ∈ active

/-- Every active state that invokes a service is served. -/
def Cover (services : Services) (chart : Chart) (active : NodeSet) : Prop :=
  ∀ node ∈ active, (chart.node node).invocation.isSome = true → services.IsServed node

theorem Retains.areWithin {before after : Services} {active : NodeSet}
    (retains : before.Retains after (· ∈ active)) (apart : before.AreApart) :
    after.AreWithin active :=
  ⟨retains.areApart apart, fun _ served => (retains.isServed_iff.1 served).2⟩

theorem areWithin_of_eq {before after : Services} {active : NodeSet}
    (within : before.AreWithin active) (running : after.running = before.running)
    (suppressed : after.suppressed = before.suppressed) : after.AreWithin active := by
  have retains := Retains.of_eq running suppressed
  exact ⟨retains.areApart within.apart,
    fun node served => within.isActive node (retains.isServed_iff.1 served).1⟩

end Services

namespace World

/-! ## Exits and entries -/

/-- Of an exit, only the cancelling has to do with services. -/
theorem services_exitState (chart : Chart) (events : List Event) (active : NodeSet)
    (world : World) (node : NodeId) :
    (exitState chart events active world node).services =
      (cancelService chart world node).services := by
  have ran := Solitary.run (cancelService chart world node) ⟨chart, node, events, active⟩
    (chart.node node).onExit
  unfold exitState
  dsimp only
  split
  · exact ran.services_eq
  · exact ran.services_eq

theorem retains_exitState (chart : Chart) (events : List Event) (active : NodeSet)
    (world : World) (node : NodeId) :
    world.services.Retains (exitState chart events active world node).services (· ≠ node) := by
  rw [services_exitState]
  exact retains_cancelService chart world node

theorem services_enterFinal (chart : Chart) (world : World) (node : NodeId) :
    (enterFinal chart world node).services = world.services := by
  unfold enterFinal completeParallel
  dsimp only
  repeat' split
  all_goals rfl

theorem services_enterState (chart : Chart) (events : List Event) (active : NodeSet)
    (resolution : Resolution) (world : World) (node : NodeId) :
    (enterState chart events active resolution world node).services = world.services := by
  let scope : Scope := ⟨chart, node, events, active⟩
  let restarted := world.modifyStatus
    (fun status => { status with done := status.done.erase node })
  have ran := Solitary.run restarted scope (chart.node node).onEntry
  have settled := fun (ids : List TransitionId) (world : World) => Solitary.foldl
    (fun world id => .run world scope (chart.transition id).actions) ids world
  unfold enterState
  dsimp only
  split
  · rw [services_enterFinal]
    exact (settled _ _).services_eq.trans ran.services_eq
  · exact (settled _ _).services_eq.trans ran.services_eq

/-- Of all that is carried out, only the exits have to do with services. -/
theorem services_carryOut (world : World) (chart : Chart) (events : List Event)
    (transitions : List TransitionId) (resolution : Resolution) :
    (world.carryOut chart events transitions resolution).services =
      (resolution.exited.foldl
        (exitState chart events (chart.active world.status.leaves)) world).services := by
  have taken := Solitary.foldl (.takeTransition chart events (chart.active world.status.leaves))
    transitions (resolution.exited.foldl
      (exitState chart events (chart.active world.status.leaves)) world)
  have entered : ∀ (nodes : List NodeId) (world : World), (nodes.foldl (enterState chart events
      (chart.active resolution.after) resolution) world).services = world.services := by
    intro nodes
    induction nodes with
    | nil => exact fun world => rfl
    | cons node rest ih =>
        intro world
        rw [List.foldl_cons, ih, services_enterState]
  exact (entered resolution.entered _).trans taken.services_eq

/-- To carry a resolution out is to take the exited states out of the services. -/
theorem retains_carryOut (world : World) (chart : Chart) (events : List Event)
    (transitions : List TransitionId) (resolution : Resolution) :
    world.services.Retains (world.carryOut chart events transitions resolution).services
      (¬ · ∈ resolution.exited) := by
  rw [services_carryOut]
  exact retains_foldl (retains_exitState chart events (chart.active world.status.leaves))
    resolution.exited world

/-! ## Microsteps -/

theorem areApart_startPending {world : World} {chart : Chart} {registry : Registry}
    {events : List Event} {active : NodeSet} (apart : world.services.AreApart) :
    (world.startPending chart registry events active).services.AreApart :=
  (isServed_startPending world chart registry events active).1 apart

theorem Solitary.giveUp (world : World) (chart : Chart) (fault : ResolutionFault) :
    Solitary world (world.giveUp chart fault).world := by
  cases fault with
  | illegal violations => exact .reportViolations world chart violations
  | endless => exact .refl world

/-- Also a microstep that is given up leaves no service running that is suppressed. -/
theorem areApart_microstep {program : Program} {world : World} {initial : Option TransitionId}
    {events : List Event} (apart : world.services.AreApart) :
    (worldAfter (world.microstep program initial events)).services.AreApart := by
  obtain ⟨asked, chosen, transitions, -, services, chooses, attempt⟩ :=
    microstep_cases world program initial events
  have choosing := Solitary.choose asked program initial events
  rw [chooses] at choosing
  rw [← services, ← choosing.services_eq] at apart
  rcases attempt with ⟨fault, -, failed⟩ | ⟨resolution, -, succeeded⟩
  · rw [failed, worldAfter, (Solitary.giveUp _ _ _).services_eq]
    exact apart
  · rw [succeeded]
    exact areApart_startPending ((retains_carryOut _ _ _ _ resolution).areApart apart)

variable {program : Program} (executable : program.chart.IsExecutable)
  (parallels : program.chart.ParallelsHaveChildren) {world after : World}
  {initial : Option TransitionId} {events : List Event} {transitions : List TransitionId}
include executable parallels

/-- After a microstep just those active states are served that invoke a service. -/
theorem areServed_of_microstep (regular : program.chart.IsRegular world.status)
    (fresh : initial.isSome = true → ¬ ∃ leaf, leaf ∈ world.status.leaves)
    (within : world.services.AreWithin (world.active program))
    (done : world.microstep program initial events = .ok (transitions, after)) :
    after.services.AreWithin (after.active program) ∧
      after.services.Cover program.chart (after.active program) := by
  obtain ⟨resolution, left, advances⟩ :=
    exists_advances_of_microstep executable parallels regular fresh done
  obtain ⟨asked, chosen, other, clears, services, chooses, resolved, isAfter⟩ :=
    exists_carryOut_of_microstep done
  have choosing := Solitary.choose asked program initial events
  rw [chooses] at choosing
  have status : chosen.status = world.status := choosing.status_eq.trans clears.status_eq
  rw [status] at resolved
  obtain rfl : other = resolution := Except.ok.inj (resolved.symm.trans advances.resolves)
  let carried := chosen.carryOut program.chart events transitions other
  have kept : world.services.Retains carried.services (¬ · ∈ other.exited) := by
    rw [← services, ← choosing.services_eq]
    exact retains_carryOut chosen program.chart events transitions other
  have starts := Hushed.startPending carried program.chart program.registry events
    (carried.active program)
  have isActive : ∀ node, carried.services.IsServed node → node ∈ carried.active program := by
    intro node served
    obtain ⟨before, stays⟩ := kept.isServed_iff.1 served
    exact advances.leads.stays node (within.isActive node before) stays
  obtain ⟨apart, served⟩ := isServed_startPending carried program.chart program.registry events
    (carried.active program)
  have stands : after.active program = carried.active program := by
    rw [isAfter]
    exact congrArg (fun status : Status => status.active program.chart) starts.status_eq
  rw [stands, isAfter]
  refine ⟨⟨apart (kept.areApart within.apart), fun node isServed => ?_⟩,
    fun node active invokes => ?_⟩
  · rcases (served node).1 isServed with ⟨active, -⟩ | earlier
    · exact active
    · exact isActive node earlier
  · exact (served node).2 (.inl ⟨active, invokes⟩)

end World

end Statechart
