import Statechart.Proofs.Machine.Starting
import Statechart.Proofs.Machine.Services
import Statechart.Proofs.World.Instances

/-!
# The instances of services along a run

Whatever a machine is asked, and however its services answer, it cancels the instances of its
services before it lets go of them, and asks nothing of any other instance.
-/

namespace Statechart

open Services (IsAlive)

namespace Machine

/-- A machine with settings and services. -/
def equip (machine : Machine) (settings : InterpreterSettings)
    (services : List (String × Service)) : Machine :=
  services.foldl (fun machine entry => machine.withService entry.1 entry.2)
    (machine.withSettings settings)

theorem equip_world (machine : Machine) (settings : InterpreterSettings)
    (services : List (String × Service)) :
    (machine.equip settings services).world = machine.world :=
  List.foldlRecOn (motive := fun other : Machine => other.world = machine.world) services _ rfl
    fun _ same _ _ => same

theorem equip_chart (machine : Machine) (settings : InterpreterSettings)
    (services : List (String × Service)) :
    (machine.equip settings services).chart = machine.chart :=
  List.foldlRecOn (motive := fun other : Machine => other.chart = machine.chart) services _ rfl
    fun _ same _ _ => same

/-- Whatever a machine is asked, operations that fail included, and however its services answer:
events are forwarded to instances and instances are cancelled only after they have started and
before they have been cancelled, so none is cancelled twice; no state ever has two live
instances; an instance is started only for a state that is active; and those that run in the
end are just those that are alive, so that none has been dropped. -/
theorem instances_are_accounted_for {chart : Chart} {model : DataModel} {machine : Machine}
    (isCreated : create chart model = .ok machine) (settings : InterpreterSettings)
    (services : List (String × Service)) (operations : List Operation) :
    let begun := machine.equip settings services
    let after := (begun.performAll operations).world.services
    let calls := after.calls.toList
    ∃ owner : Nat → NodeId,
      (∀ earlier call, earlier ++ [call] <+: calls →
        call.state = chart.idOf (owner call.number) ∧
        (call.request.isStart = false → IsAlive begun.program owner earlier call.number)) ∧
      (∀ number,
        calls.countP (fun call => call.number == number && call.request.isCancel) ≤ 1) ∧
      (∀ earlier, earlier <+: calls → ∀ first second, IsAlive begun.program owner earlier first →
        IsAlive begun.program owner earlier second → owner first = owner second →
          first = second) ∧
      (∀ call ∈ calls, call.request.isStart = true → ∃ before operation later,
        operations = before ++ operation :: later ∧
          ∃ attempt ∈ (begun.performAll before).attemptsOf operation,
            attempt.CallsAtActive begun.program (owner call.number) call) ∧
      (∀ number, IsAlive begun.program owner calls number ↔
        ∃ running, after.running.find? (owner number) = some running ∧
          running.number = number) ∧
      ∀ node running, after.running.find? node = some running → owner running.number = node := by
  intro begun after calls
  have isFresh : machine.world.services = {} ∧ machine.chart = chart := by
    unfold create at isCreated
    split at isCreated
    · cases isCreated
      exact ⟨rfl, rfl⟩
    · cases isCreated
  have begins : begun.world.services = {} := by
    rw [machine.equip_world settings services]
    exact isFresh.1
  have isChart : begun.program.chart = chart :=
    (machine.equip_chart settings services).trans isFresh.2
  have none : begun.world.services.calls = #[] ∧ begun.world.services.running = ∅ := by
    rw [begins]
    exact ⟨rfl, rfl⟩
  obtain ⟨owner, steps, -⟩ :=
    (begun.steps_performAll operations).exists_owner none.1 none.2
  have accounted := (steps.mono fun _ _ known => known.2).isAccounted
    (Services.isAccounted_of_none none.1 none.2)
  have since : Services.callsSince begun.world.services after = calls :=
    Services.callsSince_of_eq_append (by rw [none.1]; rfl)
  refine ⟨owner, fun earlier call within => ?_, accounted.inOrder.countP_cancel_le,
    fun earlier within first second firstAlive secondAlive => ?_, fun call member isStart => ?_,
    accounted.isAlive_iff, fun node running isRunning => (accounted.ofRunning _ _ isRunning).1⟩
  · have inOrder := accounted.inOrder earlier call within
    exact ⟨isChart ▸ inOrder.state_eq, inOrder.isAlive⟩
  · exact (accounted.inOrder.of_prefix within).eq_of_isAlive firstAlive secondAlive
  · obtain ⟨node, ⟨starts, owns⟩, -⟩ := steps.of_mem_callsSince (since ▸ member)
    rw [show owner call.number = node from owns]
    exact starts isStart

/-- A machine for the workshop that nothing has been registered for. -/
def bareWorkshop : Machine :=
  { program := ⟨workshopMachine.chart, []⟩, world := {} }

/-- What is asked of the workshop: its motor is told of a ring and cancelled, and then
everything starts again. -/
def workshopRequests : List Operation :=
  [.start, .fire { name := "ring" }, .cancelService "pressing", .reset]

/-- The first motor of the workshop has been cancelled and the second one, which the state that
presses owns as well, is alive. -/
theorem motors_are_accounted_for :
    create workshopMachine.chart {} = .ok bareWorkshop ∧
      let begun := bareWorkshop.equip {} [("motor", motor)]
      let after := (begun.performAll workshopRequests).world.services
      after.calls.toList.map (fun call => (call.number, call.state)) =
        [(0, "pressing"), (0, "pressing"), (0, "pressing"), (1, "pressing")] ∧
      ∃ owner, owner 1 = 3 ∧ IsAlive begun.program owner after.calls.toList 1 ∧
        ¬ IsAlive begun.program owner after.calls.toList 0 := by
  have isCreated : create workshopMachine.chart {} = .ok bareWorkshop := by
    rw [create, if_pos (by decide +kernel)]
    rfl
  have told : ((bareWorkshop.equip {} [("motor", motor)]).performAll
      workshopRequests).world.services.calls.toList.map (fun call => (call.number, call.state)) =
      [(0, "pressing"), (0, "pressing"), (0, "pressing"), (1, "pressing")] := by
    decide +kernel
  have numbered : (((bareWorkshop.equip {} [("motor", motor)]).performAll
      workshopRequests).world.services.running.find? 3).map RunningService.number = some 1 := by
    decide +kernel
  have onlyPress : ((bareWorkshop.equip {} [("motor", motor)]).performAll
      workshopRequests).world.services.running.keys = [3] := by
    decide +kernel
  obtain ⟨owner, -, -, -, -, alive, owners⟩ :=
    instances_are_accounted_for isCreated {} [("motor", motor)] workshopRequests
  refine ⟨isCreated, told, owner, ?_⟩
  generalize ((bareWorkshop.equip {} [("motor", motor)]).performAll
    workshopRequests).world.services = after at numbered onlyPress alive owners ⊢
  obtain ⟨second, isSecond, number⟩ := Option.map_eq_some_iff.1 numbered
  have isOwner : owner 1 = 3 := number ▸ owners 3 second isSecond
  refine ⟨isOwner, (alive 1).2 ⟨second, isOwner ▸ isSecond, number⟩, fun firstAlive => ?_⟩
  obtain ⟨first, isFirst, zero⟩ := (alive 0).1 firstAlive
  have runs := NodeMap.contains_of_find? isFirst
  rw [NodeMap.contains_iff, onlyPress, List.mem_singleton] at runs
  rw [runs] at isFirst
  cases isFirst.symm.trans isSecond
  cases zero.symm.trans number

end Machine

end Statechart
