import Statechart.Proofs.Machine.Starting
import Statechart.Proofs.Machine.Presence
import Statechart.Proofs.Machine.Services

/-!
# Suppressed services

A state whose service has failed to start, or has been cancelled on request, gets no new one
until the state is exited.  A microstep that exits the state counts even if the macrostep is
given up later and leaves the state active: then the state is not suppressed any more, although
it has been exited only for the time being.
-/

namespace Statechart

open Services (Steps StartsOnly callsSince)

/-- The states that a microstep exits unless it is given up. -/
def Attempt.exited (program : Program) (attempt : Attempt) : NodeSet :=
  match attempt.outcome program with
  | .ok (transitions, _) => program.chart.leavesBehind attempt.world.status.leaves transitions
  | .error _ => ∅

/-- Nodes that have a name, other than a given one. -/
def Chart.IsOther (chart : Chart) (node other : NodeId) : Prop :=
  other ≠ node ∧ chart.IsProper other

/-- A state is suppressed, and services have been started since only for other states. -/
structure Services.StaySuppressed (program : Program) (node : NodeId) (before after : Services) :
    Prop where
  steps : Steps program (StartsOnly (program.chart.IsOther node)) before after
  isSuppressed : node ∈ after.suppressed

namespace Services.StaySuppressed

variable {program : Program} {node : NodeId} {first second third : Services}

theorem refl (isSuppressed : node ∈ first.suppressed) : StaySuppressed program node first first :=
  ⟨.refl first, isSuppressed⟩

theorem trans (left : StaySuppressed program node first second)
    (right : StaySuppressed program node second third) :
    StaySuppressed program node first third :=
  ⟨left.steps.trans right.steps, right.isSuppressed⟩

end Services.StaySuppressed

namespace World

open Services (StaySuppressed)

variable {program : Program} {node : NodeId}

/-! ## Microsteps -/

/-- To start services frees no state that is suppressed. -/
theorem mem_suppressed_startPending {world : World} {chart : Chart} {registry : Registry}
    {events : List Event} {active : NodeSet} (isSuppressed : node ∈ world.services.suppressed) :
    node ∈ (world.startPending chart registry events active).services.suppressed := by
  refine List.foldlRecOn (motive := fun world : World => node ∈ world.services.suppressed) _ _
    isSuppressed fun world isSuppressed other _ => ?_
  by_cases invokes : (chart.node other).invocation.isSome = true
  · obtain ⟨asked, attended, ⟨service, result⟩ | result⟩ :=
      startAt_cases chart registry events active world invokes
    · rw [result]
      exact attended.suppressed_eq ▸ isSuppressed
    · rw [result]
      exact NodeSet.mem_insert.2 (.inr (attended.suppressed_eq ▸ isSuppressed))
  · rw [startAt, Option.not_isSome_iff_eq_none.1 invokes]
    exact isSuppressed

theorem isProper_of_awaitsStart (tree : program.chart.IsTree) {services : Services}
    {leaves : NodeSet} (isActive : node ∈ program.chart.active leaves)
    (awaits : awaitsStart program.chart services node = true) : program.chart.IsProper node := by
  refine ⟨(tree.mem_active.1 isActive).1, Nat.lt_of_not_le fun outside => ?_⟩
  have invokes := (awaitsStart_iff.1 awaits).1
  rw [Chart.node_of_le outside] at invokes
  cases invokes

section Tree

variable (tree : program.chart.IsTree)
include tree

/-- In a microstep that does not exit it, a state stays suppressed. -/
theorem staySuppressed_microstep {attempt : Attempt}
    (isSuppressed : node ∈ attempt.world.services.suppressed)
    (stays : ¬ node ∈ attempt.exited program) :
    StaySuppressed program node attempt.world.services
      (worldAfter (attempt.outcome program)).services := by
  obtain ⟨asked, chosen, transitions, clears, services, chooses, outcome⟩ :=
    microstep_cases attempt.world program attempt.initial attempt.events
  have choosing := Solitary.choose asked program attempt.initial attempt.events
  rw [chooses] at choosing
  have same : chosen.services = attempt.world.services := choosing.services_eq.trans services
  rcases outcome with ⟨fault, -, failed⟩ | ⟨resolution, resolved, succeeded⟩
  · rw [Attempt.outcome, failed, worldAfter, (Solitary.giveUp _ _ _).services_eq, same]
    exact .refl isSuppressed
  · let carried := chosen.carryOut program.chart attempt.events transitions resolution
    rw [choosing.status_eq, clears.status_eq] at resolved
    have notExited : ¬ node ∈ resolution.exited := by
      rw [Attempt.exited, Attempt.outcome, succeeded] at stays
      rwa [Chart.mem_exited_iff resolved]
    have carries : StaySuppressed program node attempt.world.services carried.services := by
      rw [← same] at isSuppressed ⊢
      exact ⟨steps_carryOut chosen attempt.events transitions resolution,
        ((retains_carryOut chosen program.chart attempt.events transitions
          resolution).mem_suppressed node).2 ⟨isSuppressed, notExited⟩⟩
    rw [Attempt.outcome, succeeded]
    refine carries.trans ⟨(steps_startPending carried attempt.events
      (carried.active program)).mono fun other call fits isStart => ?_,
      mem_suppressed_startPending carries.isSuppressed⟩
    obtain ⟨isActive, awaits⟩ := fits isStart
    refine ⟨?_, isProper_of_awaitsStart tree isActive awaits⟩
    rintro rfl
    exact (awaitsStart_iff.1 awaits).2 (.inr carries.isSuppressed)

end Tree

/-- A state that stays active stays suppressed when others are cancelled. -/
theorem staySuppressed_cancelInactive {world : World} {active : NodeSet}
    (isSuppressed : node ∈ world.services.suppressed) (isActive : node ∈ active) :
    StaySuppressed program node world.services
      (world.cancelInactive program.chart active).services :=
  ⟨steps_cancelInactive world active,
    ((retains_cancelInactive world program.chart active).mem_suppressed node).2
      ⟨isSuppressed, isActive⟩⟩

end World

namespace Machine

open Services (StaySuppressed)

variable {machine : Machine} {node : NodeId}

theorem leads_staySuppressed (machine : Machine) (tree : machine.chart.IsTree)
    (isActive : node ∈ machine.status.active machine.chart) {attempts : List Attempt}
    (stays : ∀ attempt ∈ attempts, ¬ node ∈ attempt.exited machine.program) :
    machine.Leads attempts (fun before after => node ∈ before.services.suppressed →
      StaySuppressed machine.program node before.services after.services) where
  solitary _ _ solitary isSuppressed := ⟨solitary.steps, solitary.services_eq ▸ isSuppressed⟩
  trans _ _ _ left right isSuppressed :=
    (left isSuppressed).trans (right (left isSuppressed).isSuppressed)
  opening initial isSuppressed := ⟨World.steps_opening machine.world machine.program initial,
    (World.attended_opening machine.world machine.program initial).2 ▸ isSuppressed⟩
  attempt attempt member isSuppressed :=
    World.staySuppressed_microstep tree isSuppressed (stays attempt member)
  rollBack world isSuppressed := by
    let restored : World := { world with status := machine.status }
    have suppressed : node ∈ restored.services.suppressed := isSuppressed
    exact World.staySuppressed_cancelInactive suppressed isActive

/-- A service that is cancelled on request is suppressed. -/
theorem mem_suppressed_of_cancelService {after : Machine} {id : String}
    (isNode : machine.chart.lookup id = some node)
    (cancelled : machine.cancelService id = (true, after)) :
    node ∈ after.world.services.suppressed := by
  unfold cancelService at cancelled
  rw [isNode] at cancelled
  dsimp only at cancelled
  split at cancelled
  · obtain ⟨-, rfl⟩ := Prod.mk.inj cancelled
    dsimp only
    rw [(World.Solitary.foldl .post _ _).services_eq]
    exact NodeSet.mem_insert.2 (.inl rfl)
  · cases (Prod.mk.inj cancelled).1

theorem cancelService_eq {id : String} (wasRunning : (machine.cancelService id).1 = true) :
    machine.cancelService id = (true, machine.performAll [.cancelService id]) :=
  Prod.ext wasRunning rfl

/-- To cancel services on request frees no state that is suppressed. -/
theorem staySuppressed_cancelService (id : String)
    (isSuppressed : node ∈ machine.world.services.suppressed) :
    StaySuppressed machine.program node machine.world.services
      (machine.cancelService id).2.world.services := by
  refine ⟨machine.steps_cancelService id, ?_⟩
  unfold cancelService
  split
  · exact isSuppressed
  · next other _ =>
      split
      · rw [(World.Solitary.foldl .post _ _).services_eq]
        refine NodeSet.mem_insert.2 (or_iff_not_imp_left.2 fun different => ?_)
        exact ((World.retains_cancelService machine.chart
          { machine.world with generated := #[] } other).mem_suppressed node).2
            ⟨isSuppressed, different⟩
      · exact isSuppressed

/-- An ordinary operation in which no microstep exits it leaves a state suppressed. -/
theorem staySuppressed_perform (tree : machine.chart.IsTree) {operation : Operation}
    (ordinary : operation.isOrdinary = true)
    (isActive : node ∈ machine.status.active machine.chart)
    (stays : ∀ attempt ∈ machine.attemptsOf operation, ¬ node ∈ attempt.exited machine.program)
    (isSuppressed : node ∈ machine.world.services.suppressed) :
    StaySuppressed machine.program node machine.world.services
      (machine.perform operation).2.world.services := by
  cases operation with
  | start => exact (machine.leads_staySuppressed tree isActive stays).start isSuppressed
  | step => exact (machine.leads_staySuppressed tree isActive stays).step isSuppressed
  | fire event =>
      exact ((machine.push event).leads_staySuppressed tree isActive stays).step isSuppressed
  | push event => exact .refl isSuppressed
  | cancelService id => exact staySuppressed_cancelService id isSuppressed
  | reset => cases ordinary
  | restore snapshot => cases ordinary

theorem staySuppressed_performAll (tree : machine.chart.IsTree) {operations : List Operation}
    (stays : ∀ before operation later, operations = before ++ operation :: later →
      operation.isOrdinary = true ∧
      node ∈ (machine.performAll before).status.active machine.chart ∧
      ∀ attempt ∈ (machine.performAll before).attemptsOf operation,
        ¬ node ∈ attempt.exited machine.program)
    (isSuppressed : node ∈ machine.world.services.suppressed) :
    StaySuppressed machine.program node machine.world.services
      (machine.performAll operations).world.services := by
  refine related_performAll
    (fun before after => node ∈ before.services.suppressed →
      StaySuppressed machine.program node before.services after.services)
    (fun _ => .refl)
    (fun _ _ _ left right isSuppressed =>
      (left isSuppressed).trans (right (left isSuppressed).isSuppressed))
    (fun before operation later split => ?_) isSuppressed
  obtain ⟨ordinary, isActive, notExited⟩ := stays before operation later split
  have program := (machine.succeeds_performAll before).program_eq
  have chart : (machine.performAll before).chart = machine.chart := congrArg Program.chart program
  rw [← program]
  rw [← program] at notExited
  rw [← chart] at isActive tree
  exact staySuppressed_perform tree ordinary isActive notExited

/-- A state whose service is suppressed gets no new one before a microstep has exited it,
whatever else the machine is asked and whether or not that fails, unless the machine is reset
or a snapshot is restored. -/
theorem suppressed_until_exited {definition : Definition}
    (isChart : chartOf definition = .ok machine.chart) {id : String}
    (isNode : machine.chart.lookup id = some node)
    (isSuppressed : node ∈ machine.world.services.suppressed) {operations : List Operation}
    (stays : ∀ before operation later, operations = before ++ operation :: later →
      operation.isOrdinary = true ∧
      node ∈ (machine.performAll before).status.active machine.chart ∧
      ∀ attempt ∈ (machine.performAll before).attemptsOf operation,
        ¬ node ∈ attempt.exited machine.program) :
    let after := (machine.performAll operations).world.services
    node ∈ after.suppressed ∧ ∀ call ∈ callsSince machine.world.services after,
      call.request.isStart = true → call.state ≠ id := by
  have executable := Chart.isExecutable_of_chartOf isChart
  obtain ⟨isProper, rfl⟩ := (executable.finds id node).1 isNode
  have stay := staySuppressed_performAll executable.tree stays isSuppressed
  refine ⟨stay.isSuppressed, fun call isCall isStart same => ?_⟩
  obtain ⟨other, fits, isOther⟩ := stay.steps.of_mem_callsSince isCall
  obtain ⟨different, otherProper⟩ := fits isStart
  exact different (executable.eq_of_idOf_eq otherProper isProper (isOther.symm.trans same))

/-- A desk with a lamp.  Whoever leaves it comes to a road whose two sides lead to different
places at once. -/
def desk : Definition :=
  { states := [
      { id := some "desk", invocation := some { service := "lamp", source := some "bulb" },
        transitions := [{ event := some "leave", target := some "road" }] },
      { id := some "road", isParallel := true, states := [
        { id := some "left", states := [
          { id := some "west", transitions := [{ target := some "sea" }] }] },
        { id := some "right", states := [
          { id := some "east", transitions := [{ target := some "hills" }] }] }] },
      { id := some "sea" },
      { id := some "hills" }] }

/-- A machine that sits at the desk. -/
def litDesk : Machine :=
  (preparedOrEmpty desk {} {} [("lamp", motor)]).performAll [.start]

/-- The same machine after its lamp has been cancelled on request. -/
def darkDesk : Machine :=
  litDesk.performAll [.cancelService "desk"]

theorem comesAbout_litDesk : ComesAbout desk litDesk := by
  have prepared : ComesAbout desk (preparedOrEmpty desk {} {} [("lamp", motor)]) :=
    .prepared (prepare_eq_ok (by decide +kernel))
  exact prepared.performAll (by simp)

theorem cancelService_litDesk : litDesk.cancelService "desk" = (true, darkDesk) :=
  cancelService_eq (by decide +kernel)

/-- As long as nobody leaves the desk, its lamp stays dark. -/
theorem desk_stays_dark :
    (chartOf desk = .ok darkDesk.chart ∧ darkDesk.chart.lookup "desk" = some 1 ∧
      1 ∈ darkDesk.world.services.suppressed) ∧
    let after := (darkDesk.performAll [.fire { name := "wait" }, .step]).world.services
    1 ∈ after.suppressed ∧ ∀ call ∈ callsSince darkDesk.world.services after,
      call.request.isStart = true → call.state ≠ "desk" := by
  have comesAbout : ComesAbout desk darkDesk := comesAbout_litDesk.performAll (by simp)
  have isNode : darkDesk.chart.lookup "desk" = some 1 := by decide +kernel
  have isSuppressed : 1 ∈ darkDesk.world.services.suppressed :=
    mem_suppressed_of_cancelService (by decide +kernel) cancelService_litDesk
  refine ⟨⟨comesAbout.chartOf_eq, isNode, isSuppressed⟩,
    suppressed_until_exited comesAbout.chartOf_eq isNode isSuppressed ?_⟩
  rintro (_ | ⟨first, _ | ⟨second, rest⟩⟩) operation later split
  · obtain ⟨rfl, -⟩ := List.cons.inj split
    decide +kernel
  · obtain ⟨rfl, -⟩ := List.cons.inj (List.cons.inj split).2
    obtain rfl := (List.cons.inj split).1
    decide +kernel
  · simp at split

/-- Whoever has tried to leave the desk in vain finds the lamp lit again: a step that failed has
forgotten that the lamp was cancelled, although the desk is still active. -/
theorem failed_step_forgets_suppression :
    ComesAbout desk litDesk ∧ litDesk.cancelService "desk" = (true, darkDesk) ∧
      1 ∈ darkDesk.status.active darkDesk.chart ∧ darkDesk.chart.idOf 1 = "desk" ∧
      ∃ fault failed report after, darkDesk.fire { name := "leave" } = (.error fault, failed) ∧
        1 ∈ failed.status.active failed.chart ∧
        failed.fire { name := "wait" } = (.ok report, after) ∧
        (∀ attempt ∈ failed.attemptsOf (.fire { name := "wait" }),
          ¬ 1 ∈ attempt.exited failed.program) ∧
        ∃ call ∈ callsSince failed.world.services after.world.services,
          call.request.isStart = true ∧ call.state = "desk" := by
  have isActive : 1 ∈ darkDesk.status.active darkDesk.chart := by decide +kernel
  have isNamed : darkDesk.chart.idOf 1 = "desk" := by decide +kernel
  have fails : (darkDesk.fire { name := "leave" }).1.isOk = false := by decide +kernel
  have stands : 1 ∈ (darkDesk.fire { name := "leave" }).2.status.active
      (darkDesk.fire { name := "leave" }).2.chart := by
    decide +kernel
  have waits : ((darkDesk.fire { name := "leave" }).2.fire { name := "wait" }).1.isOk = true := by
    decide +kernel
  have stays : ∀ attempt ∈ (darkDesk.fire { name := "leave" }).2.attemptsOf
      (.fire { name := "wait" }),
      ¬ 1 ∈ attempt.exited (darkDesk.fire { name := "leave" }).2.program := by
    decide +kernel
  have starts : ∃ call ∈ callsSince (darkDesk.fire { name := "leave" }).2.world.services
      ((darkDesk.fire { name := "leave" }).2.fire { name := "wait" }).2.world.services,
      call.request.isStart = true ∧ call.state = "desk" := by
    decide +kernel
  refine ⟨comesAbout_litDesk, cancelService_litDesk, isActive, isNamed, ?_⟩
  cases outcome : darkDesk.fire { name := "leave" } with
  | mk result failed =>
      rw [outcome] at fails stands waits stays starts
      cases result with
      | ok report => cases fails
      | error fault =>
          cases next : failed.fire { name := "wait" } with
          | mk result after =>
              rw [next] at waits starts
              cases result with
              | error fault => cases waits
              | ok report =>
                  exact ⟨fault, failed, report, after, rfl, stands, next, stays, starts⟩

end Machine

end Statechart
