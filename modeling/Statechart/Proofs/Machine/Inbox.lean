import Statechart.Proofs.Chart.Addressing
import Statechart.Proofs.Machine.Instances
import Statechart.Proofs.Machine.Receiving

/-!
# What an operation does with the inbox

Every operation puts some events into the inbox: those that the host pushes, those that services
send in answer to the calls that are made, and one that tells of a service that could not be
cancelled on request.  It takes events out of the inbox only at one moment, and then all that
wait there: when a macrostep begins, or when the machine is reset.
-/

namespace Statechart

open Services (callsSince)

/-- The events that the host puts into the inbox with an operation. -/
def Machine.Operation.pushed : Machine.Operation → List Event
  | .push event | .fire event => [event]
  | .start | .step | .cancelService _ | .reset | .restore _ => []

namespace Machine

/-! ## What an operation does with the inbox -/

/-- The events that are discarded when the machine is reset: all that wait once its services
have been cancelled. -/
def discardedBy (machine : Machine) : Operation → List Event
  | .reset => (machine.world.cancelAll machine.chart).inbox
  | .start | .step | .fire _ | .push _ | .cancelService _ | .restore _ => []

/-- The event that tells of a service that fails to be cancelled on request. -/
def refusalsOf (machine : Machine) (id : String) : List Event :=
  match machine.chart.lookup id with
  | none => []
  | some node => machine.world.refusals machine.chart node

def refusalsBy (machine : Machine) : Operation → List Event
  | .cancelService id => machine.refusalsOf id
  | .start | .step | .fire _ | .push _ | .reset | .restore _ => []

/-- The events that an operation has put into the inbox by the time that a world is reached, in
this order: the host has pushed them, services have sent them, or they tell of a service that
could not be cancelled. -/
def putUntil (machine : Machine) (operation : Operation) (world : World) : List Event :=
  operation.pushed ++ machine.program.sentSince machine.world.services world.services ++
    machine.refusalsBy operation

/-- What has become of the inbox by the time that a world is reached in the course of an
operation: of what was there and what has been put there, the first part has been handed to a
macrostep or discarded, and the rest waits.  Forwarded has been only what was handed over. -/
structure Reaches (machine : Machine) (operation : Operation) (world : World) : Prop where
  isSound : machine.world.model.IsSound → world.model.IsSound
  areInvoked : world.services.AreInvoked machine.program
  grows : machine.world.services.calls.toList <+: world.services.calls.toList
  forwardsOnly : ∀ call ∈ callsSince machine.world.services world.services,
    call.request.ForwardsOnly (machine.handedBy operation)
  inbox_eq : machine.world.inbox ++ machine.putUntil operation world =
    machine.handedBy operation ++ machine.discardedBy operation ++ world.inbox

section Reaches

variable {machine : Machine} {operation : Operation} {prior base world : World}

/-- What is handed over and discarded has been taken from the inbox once the services that an
operation cancels first have been; from there on the inbox only receives. -/
theorem Reaches.of_received
    (cancels : World.Received machine.program [] machine.world prior)
    (services_eq : base.services = prior.services) (model_eq : base.model = prior.model)
    (taken : prior.inbox ++ operation.pushed =
      machine.handedBy operation ++ machine.discardedBy operation ++ base.inbox)
    (received : World.Received machine.program (machine.handedBy operation) base world)
    (order : operation.pushed = [] ∨ prior = machine.world)
    (noRefusals : machine.refusalsBy operation = []) : machine.Reaches operation world := by
  have later := received.grows
  rw [services_eq] at later
  have since := Services.callsSince_append cancels.grows later
  refine ⟨fun sound => received.isSound (model_eq ▸ cancels.isSound sound), received.areInvoked,
    cancels.grows.trans later, fun call member => ?_, ?_⟩
  · rw [since] at member
    rcases List.mem_append.1 member with earlier | afterwards
    · exact (cancels.forwardsOnly call earlier).mono (List.nil_subset _)
    · exact received.forwardsOnly call (services_eq ▸ afterwards)
  · have waits := received.inbox_eq
    rw [services_eq] at waits
    have sent := machine.program.sentSince_append cancels.grows later
    rw [waits, ← List.append_assoc, ← taken, cancels.inbox_eq, putUntil, noRefusals,
      List.append_nil, sent]
    rcases order with notPushed | same
    · rw [notPushed, List.nil_append, List.append_nil, List.append_assoc]
    · rw [same, machine.program.sentSince_of_eq rfl]
      simp only [List.nil_append, List.append_nil, List.append_assoc]

/-- Nothing is taken where no macrostep begins. -/
theorem Reaches.of_idle (base : World) (isIdle : machine.macrostepBegun operation = none)
    (noneDiscarded : machine.discardedBy operation = [])
    (noRefusals : machine.refusalsBy operation = [])
    (services_eq : base.services = machine.world.services)
    (model_eq : base.model = machine.world.model)
    (inbox_eq : base.inbox = machine.world.inbox ++ operation.pushed)
    (invoked : machine.world.services.AreInvoked machine.program)
    (receives : World.Receives machine.program [] base world) :
    machine.Reaches operation world := by
  have noneHanded : machine.handedBy operation = [] := by rw [handedBy, isIdle]
  refine .of_received (World.Receives.refl _ invoked) services_eq model_eq ?_ ?_ (.inr rfl)
    noRefusals
  · rw [noneHanded, noneDiscarded, List.nil_append, List.nil_append, inbox_eq]
  · rw [noneHanded]
    exact receives (services_eq ▸ invoked)

/-- What is handed to a macrostep is taken when it begins. -/
theorem reaches_of_begun {begun : Machine} {initial : Option TransitionId}
    (isBegun : machine.macrostepBegun operation = some (begun, initial))
    (finds : machine.program.FindsServices)
    (cancels : World.Received machine.program [] machine.world prior)
    (services_eq : begun.world.services = prior.services)
    (model_eq : begun.world.model = prior.model)
    (taken : prior.inbox ++ operation.pushed =
      begun.world.drained initial ++ machine.discardedBy operation ++
        (begun.world.taking initial).inbox)
    (order : operation.pushed = [] ∨ prior = machine.world)
    (noRefusals : machine.refusalsBy operation = []) :
    (∀ attempt ∈ machine.attemptsOf operation, machine.Reaches operation attempt.world) ∧
      machine.Reaches operation (machine.perform operation).2.world := by
  have isHanded : machine.handedBy operation = begun.world.drained initial := by
    rw [handedBy, isBegun]
  have program_eq := (begins_of_begun isBegun).program_eq
  obtain ⟨course, outcome⟩ := course_of_begun isBegun
  obtain ⟨sameServices, sameModel⟩ := begun.world.services_taking initial
  rw [← isHanded] at taken
  have reaches : ∀ {world : World}, World.Receives machine.program (begun.world.drained initial)
      (begun.world.taking initial) world → machine.Reaches operation world := by
    intro world receives
    refine .of_received cancels (sameServices.trans services_eq) (sameModel.trans model_eq) taken
      ?_ order noRefusals
    rw [isHanded]
    refine receives ?_
    rw [sameServices, services_eq]
    exact cancels.areInvoked
  obtain ⟨begins, ends⟩ := receives_of_course (program_eq ▸ finds) course
  rw [program_eq] at begins ends
  rw [perform_of_macrostepOf outcome]
  exact ⟨fun attempt member => reaches (begins attempt member), reaches ends⟩

end Reaches

section Operations

variable {machine : Machine} (finds : machine.program.FindsServices)
  (invoked : machine.world.services.AreInvoked machine.program)
include finds invoked

theorem reaches_start :
    (∀ attempt ∈ machine.attemptsOf .start, machine.Reaches .start attempt.world) ∧
      machine.Reaches .start (machine.perform .start).2.world := by
  cases isBegun : machine.startBegun with
  | none =>
      have isIdle : machine.macrostepBegun .start = none := isBegun
      rw [attemptsOf_of_idle isIdle, perform, start_of_idle isBegun]
      refine ⟨fun _ member => (by cases member), ?_⟩
      exact .of_idle _ isIdle rfl rfl rfl rfl (List.append_nil _).symm invoked (.refl _)
  | some macrostep =>
      obtain ⟨-, same, -⟩ := eq_of_startBegun isBegun
      refine reaches_of_begun isBegun finds (World.Receives.refl _ invoked) (by rw [same])
        (by rw [same]) ?_ (.inl rfl) rfl
      rw [same, discardedBy, List.append_nil, World.drained_append_taking]
      exact List.append_nil _

/-- An operation that comes down to a step of a machine, into whose inbox events have been pushed
for that. -/
theorem reaches_of_step {operation : Operation} (stepping : Machine)
    (world_eq : stepping.world =
      { machine.world with inbox := machine.world.inbox ++ operation.pushed })
    (begins : machine.macrostepBegun operation = stepping.stepBegun)
    (ends : (machine.perform operation).2 = stepping.step.2)
    (noneDiscarded : machine.discardedBy operation = [])
    (noRefusals : machine.refusalsBy operation = []) :
    (∀ attempt ∈ machine.attemptsOf operation, machine.Reaches operation attempt.world) ∧
      machine.Reaches operation (machine.perform operation).2.world := by
  have services_eq : stepping.world.services = machine.world.services := by rw [world_eq]
  have model_eq : stepping.world.model = machine.world.model := by rw [world_eq]
  have inbox_eq : stepping.world.inbox = machine.world.inbox ++ operation.pushed := by rw [world_eq]
  cases isBegun : stepping.stepBegun with
  | none =>
      have isIdle := begins.trans isBegun
      have stays : stepping.step.2 = stepping := by
        rcases step_of_idle isBegun with result | result <;> rw [result]
      rw [attemptsOf_of_idle isIdle, ends, stays]
      refine ⟨fun _ member => (by cases member), ?_⟩
      exact .of_idle stepping.world isIdle noneDiscarded noRefusals services_eq model_eq inbox_eq
        invoked (.refl _)
  | some macrostep =>
      obtain ⟨-, -, same, -⟩ := eq_of_stepBegun isBegun
      refine reaches_of_begun (begins.trans isBegun) finds (World.Receives.refl _ invoked)
        (same ▸ services_eq) (same ▸ model_eq) ?_ (.inr rfl) noRefusals
      rw [same, noneDiscarded, List.append_nil, World.drained_append_taking, inbox_eq]

theorem reaches_step :
    (∀ attempt ∈ machine.attemptsOf .step, machine.Reaches .step attempt.world) ∧
      machine.Reaches .step (machine.perform .step).2.world := by
  have world_eq : machine.world = { machine.world with inbox := machine.world.inbox ++ [] } := by
    rw [List.append_nil]
  exact reaches_of_step finds invoked machine world_eq rfl rfl rfl rfl

theorem reaches_fire (event : Event) :
    (∀ attempt ∈ machine.attemptsOf (.fire event), machine.Reaches (.fire event) attempt.world) ∧
      machine.Reaches (.fire event) (machine.perform (.fire event)).2.world :=
  reaches_of_step finds invoked (machine.push event) rfl rfl rfl rfl rfl

theorem reaches_reset :
    (∀ attempt ∈ machine.attemptsOf .reset, machine.Reaches .reset attempt.world) ∧
      machine.Reaches .reset (machine.perform .reset).2.world := by
  cases isBegun : machine.emptied.startBegun with
  | none => cases isBegun
  | some macrostep =>
      obtain ⟨-, same, -⟩ := eq_of_startBegun isBegun
      refine reaches_of_begun isBegun finds
        (World.Receives.cancelInactive finds machine.world ∅ invoked) (by rw [same]; rfl)
        (by rw [same]; rfl) ?_ (.inl rfl) rfl
      -- Nothing waits when the machine is started anew.
      obtain ⟨drainsNone, leavesNone⟩ := List.append_eq_nil_iff.1
        (machine.emptied.world.drained_append_taking macrostep.2)
      rw [same, drainsNone, leavesNone]
      exact (List.append_nil _).trans (List.append_nil _).symm

/-- To cancel a service on request puts into the inbox what the service sends, and then what
tells that it has failed. -/
theorem reaches_cancelService (id : String) :
    machine.Reaches (.cancelService id) (machine.cancelService id).2.world := by
  have idle : machine.refusalsOf id = [] →
      machine.Reaches (.cancelService id) machine.world := fun noRefusals =>
    .of_idle _ rfl rfl noRefusals rfl rfl (List.append_nil _).symm invoked (.refl _)
  unfold Machine.cancelService
  split
  · next isUnknown => exact idle (by rw [refusalsOf, isUnknown])
  · next node isNode =>
      have areRefusals : machine.refusalsOf id = machine.world.refusals machine.chart node := by
        rw [refusalsOf, isNode]
      split
      · let cleared : World := { machine.world with generated := #[] }
        let cancelled := World.cancelService machine.chart cleared node
        have clears : World.Inward machine.world cleared := ⟨rfl, rfl, fun sound => sound⟩
        have suppresses : World.Receives machine.program [] cancelled (cancelled.suppress node) :=
          .of_still (fun sound => sound) rfl rfl rfl
        obtain received := ((clears.receives.trans
          (World.Receives.cancelService finds cleared node)).trans suppresses) invoked
        have generated : (cancelled.suppress node).generated.toList = machine.refusalsOf id :=
          areRefusals ▸ World.generated_cancelService machine.chart cleared node
        dsimp only
        rw [World.foldl_post]
        refine ⟨received.isSound, received.areInvoked, received.grows, fun call member =>
          (received.forwardsOnly call member).mono (List.nil_subset _), ?_⟩
        have waits : (cancelled.suppress node).inbox = machine.world.inbox ++
            machine.program.sentSince machine.world.services (cancelled.suppress node).services :=
          received.inbox_eq
        rw [show handedBy machine (.cancelService id) = [] from rfl, discardedBy, putUntil,
          refusalsBy, ← generated]
        dsimp only
        rw [waits]
        simp only [Operation.pushed, List.nil_append, List.append_assoc]
        rfl
      · next notRunning =>
          refine idle ?_
          rw [areRefusals, World.refusals]
          cases isRunning : machine.world.services.running.find? node with
          | none => rfl
          | some running => exact absurd (NodeMap.contains_of_find? isRunning) notRunning

theorem reaches_restore (snapshot : Snapshot) :
    machine.Reaches (.restore snapshot) (machine.restore snapshot).2.world := by
  refine .of_idle machine.world rfl rfl rfl rfl rfl (List.append_nil _).symm invoked ?_
  unfold restore
  dsimp only
  split
  · exact .refl _
  · next status _ =>
      split
      · exact (World.Receives.cancelInactive finds machine.world ∅).trans
          (.of_still id rfl rfl rfl)
      · exact (World.Inward.giveUp machine.world machine.chart (.illegal _)).receives

/-- Whatever a machine is asked, whether or not it fails: until each of its microsteps begins,
and until it ends, the inbox has kept or passed on all that was put there. -/
theorem reaches_perform (operation : Operation) :
    (∀ attempt ∈ machine.attemptsOf operation, machine.Reaches operation attempt.world) ∧
      machine.Reaches operation (machine.perform operation).2.world := by
  have none : ∀ attempt ∈ ([] : List Attempt), machine.Reaches operation attempt.world :=
    fun _ member => by cases member
  cases operation with
  | start => exact reaches_start finds invoked
  | step => exact reaches_step finds invoked
  | fire event => exact reaches_fire finds invoked event
  | reset => exact reaches_reset finds invoked
  | push event =>
      exact ⟨none, .of_idle (machine.push event).world rfl rfl rfl rfl rfl rfl invoked
        (.refl _)⟩
  | cancelService id => exact ⟨none, reaches_cancelService finds invoked id⟩
  | restore snapshot => exact ⟨none, reaches_restore finds invoked snapshot⟩

end Operations

/-- Before a machine has been asked anything, no service runs that its state does not invoke, and
services are found by the ids of their states. -/
theorem findsServices_of_fresh {machine : Machine} {model : DataModel}
    (addressed : machine.chart.IsAddressed) (isFresh : machine.world = { model }) :
    machine.program.FindsServices ∧ machine.world.services.AreInvoked machine.program := by
  refine ⟨Program.findsServices_of_findsById addressed.finds, ?_⟩
  rw [isFresh]
  exact fun node running isRunning => by cases isRunning

/-- A machine that has just been created. -/
theorem world_of_create {chart : Chart} {model : DataModel} {machine : Machine}
    (isCreated : create chart model = .ok machine) (settings : InterpreterSettings)
    (services : List (String × Service)) :
    (machine.equip settings services).chart = chart ∧
      (machine.equip settings services).world = { model } := by
  unfold create at isCreated
  split at isCreated
  · cases isCreated
    exact ⟨equip_chart _ settings services, equip_world _ settings services⟩
  · cases isCreated

theorem registry_of_create {chart : Chart} {model : DataModel} {machine : Machine}
    (isCreated : create chart model = .ok machine) : machine.program.registry = [] := by
  unfold create at isCreated
  split at isCreated
  · cases isCreated
    rfl
  · cases isCreated

/-! ## Operations one after the other -/

/-- Whatever a machine is asked, its services stay those that its states invoke, and it keeps no
guard that is not what its text says. -/
theorem areInvoked_performAll {machine : Machine} (finds : machine.program.FindsServices)
    (invoked : machine.world.services.AreInvoked machine.program) (operations : List Operation) :
    (machine.performAll operations).world.services.AreInvoked machine.program ∧
      (machine.world.model.IsSound → (machine.performAll operations).world.model.IsSound) := by
  induction operations generalizing machine with
  | nil => exact ⟨invoked, id⟩
  | cons operation rest ih =>
      obtain ⟨-, reaches⟩ := reaches_perform finds invoked operation
      have program_eq := (succeeds_perform machine operation).program_eq
      have findsNext : (machine.perform operation).2.program.FindsServices := program_eq ▸ finds
      obtain ⟨stillInvoked, stillSound⟩ := ih findsNext (program_eq ▸ reaches.areInvoked)
      exact ⟨program_eq ▸ stillInvoked, fun sound => stillSound (reaches.isSound sound)⟩

end Machine

end Statechart
