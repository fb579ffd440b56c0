import Statechart.Proofs.Microstep.Services
import Statechart.Proofs.World.Calls
import Statechart.Proofs.World.Inward

/-!
# What comes into the inbox

While a machine works, nothing but what services send comes into the inbox, and nothing leaves
it.  Services send in answer to calls, and calls go on record, so what has come in since some
moment can be read off the record.
-/

namespace Statechart

namespace Services

variable {first second third : Services}

theorem calls_eq_append (grows : first.calls.toList <+: second.calls.toList) :
    second.calls.toList = first.calls.toList ++ callsSince first second := by
  obtain ⟨calls, made⟩ := grows
  rw [callsSince_of_eq_append made.symm, made]

theorem callsSince_append (left : first.calls.toList <+: second.calls.toList)
    (right : second.calls.toList <+: third.calls.toList) :
    callsSince first third = callsSince first second ++ callsSince second third := by
  refine callsSince_of_eq_append ?_
  rw [calls_eq_append right, calls_eq_append left, List.append_assoc]

end Services

/-- Only some events are forwarded. -/
def Service.Request.ForwardsOnly (events : List Event) : Service.Request → Prop
  | .forward event => event ∈ events
  | .start _ _ | .cancel => True

theorem Service.Request.ForwardsOnly.mono {fewer more : List Event} {request : Service.Request}
    (only : request.ForwardsOnly fewer) (subset : fewer ⊆ more) : request.ForwardsOnly more := by
  cases request with
  | forward event => exact subset only
  | start | cancel => trivial

namespace Program

/-- The answer to a call: the service answers that is invoked by the state with the id that the
call bears. -/
def replyTo (program : Program) (earlier : List Service.Call) (call : Service.Call) : Service.Reply :=
  match (program.chart.lookup call.state).bind program.serviceAt? with
  | some service => service.respond earlier call
  | none => {}

/-- What services send in answer to some calls, given the calls before. -/
def sentBy (program : Program) (earlier : List Service.Call) : List Service.Call → List Event
  | [] => []
  | call :: later =>
    (program.replyTo earlier call).sends ++ program.sentBy (earlier ++ [call]) later

/-- What services have sent since some moment. -/
def sentSince (program : Program) (before after : Services) : List Event :=
  program.sentBy before.calls.toList (Services.callsSince before after)

/-- States that invoke a service are found by their ids. -/
def FindsServices (program : Program) : Prop :=
  ∀ node, node ≠ rootId → (program.serviceAt? node).isSome = true →
    program.chart.lookup (program.chart.idOf node) = some node

theorem sentBy_append (program : Program) (earlier first second : List Service.Call) :
    program.sentBy earlier (first ++ second) =
      program.sentBy earlier first ++ program.sentBy (earlier ++ first) second := by
  induction first generalizing earlier with
  | nil => rw [List.nil_append, List.append_nil, sentBy, List.nil_append]
  | cons call rest ih =>
      rw [List.cons_append, sentBy, sentBy, ih, List.append_assoc, List.append_assoc,
        List.singleton_append]

theorem sentSince_append (program : Program) {first second third : Services}
    (left : first.calls.toList <+: second.calls.toList)
    (right : second.calls.toList <+: third.calls.toList) :
    program.sentSince first third =
      program.sentSince first second ++ program.sentSince second third := by
  rw [sentSince, Services.callsSince_append left right, sentBy_append,
    ← Services.calls_eq_append left]
  rfl

theorem sentSince_of_eq (program : Program) {first second : Services}
    (same : second.calls = first.calls) : program.sentSince first second = [] := by
  rw [sentSince, Services.callsSince_of_eq same, sentBy]

theorem findsServices_of_findsById {program : Program} (finds : program.chart.FindsById) :
    program.FindsServices := by
  intro node notRoot invokes
  refine (finds _ node).2 ⟨⟨notRoot, Nat.lt_of_not_le fun outside => ?_⟩, rfl⟩
  rw [serviceAt?, Chart.node_of_le outside] at invokes
  cases invokes

theorem FindsServices.replyTo_eq {program : Program} (finds : program.FindsServices) {node : NodeId}
    {service : Service} (notRoot : node ≠ rootId)
    (isService : program.serviceAt? node = some service)
    (earlier : List Service.Call) (number : Nat) (request : Service.Request) :
    program.replyTo earlier ⟨number, program.chart.idOf node, request⟩ =
      service.respond earlier ⟨number, program.chart.idOf node, request⟩ := by
  rw [replyTo, finds node notRoot (isService ▸ rfl), Option.bind_some, isService]

end Program

/-- Every running instance is one of the service that its state invokes. -/
def Services.AreInvoked (services : Services) (program : Program) : Prop :=
  ∀ node running, services.running.find? node = some running →
    node ≠ rootId ∧ program.serviceAt? node = some running.service

namespace World

/-- What comes of a step in which the inbox gets what services send in answer to the calls that
are made, and nothing else, while no events are forwarded but some that are given. -/
structure Received (program : Program) (forwarded : List Event) (before after : World) : Prop where
  isSound : before.model.IsSound → after.model.IsSound
  areInvoked : after.services.AreInvoked program
  exists_calls : ∃ calls, after.services.calls.toList = before.services.calls.toList ++ calls ∧
    (∀ call ∈ calls, call.request.ForwardsOnly forwarded) ∧
    after.inbox = before.inbox ++ program.sentBy before.services.calls.toList calls

/-- A step that only receives, where the running instances are those that states invoke. -/
def Receives (program : Program) (forwarded : List Event) (before after : World) : Prop :=
  before.services.AreInvoked program → Received program forwarded before after

variable {program : Program} {forwarded : List Event} {first second third : World}

namespace Received

theorem grows (received : Received program forwarded first second) :
    first.services.calls.toList <+: second.services.calls.toList := by
  obtain ⟨calls, made, -, -⟩ := received.exists_calls
  exact ⟨calls, made.symm⟩

/-- The calls that a step makes are those that have gone on record. -/
theorem inbox_eq (received : Received program forwarded first second) :
    second.inbox = first.inbox ++ program.sentSince first.services second.services := by
  obtain ⟨calls, made, -, inbox⟩ := received.exists_calls
  rw [inbox, Program.sentSince, Services.callsSince_of_eq_append made]

theorem forwardsOnly (received : Received program forwarded first second) :
    ∀ call ∈ Services.callsSince first.services second.services,
      call.request.ForwardsOnly forwarded := by
  obtain ⟨calls, made, only, -⟩ := received.exists_calls
  rw [Services.callsSince_of_eq_append made]
  exact only

end Received

namespace Receives

/-- Nothing is called, and every instance goes on. -/
theorem of_still (isSound : first.model.IsSound → second.model.IsSound)
    (running_eq : second.services.running = first.services.running)
    (calls_eq : second.services.calls = first.services.calls)
    (inbox_eq : second.inbox = first.inbox) : Receives program forwarded first second := by
  intro invoked
  rw [Services.AreInvoked, ← running_eq] at invoked
  refine ⟨isSound, invoked, [], ?_, fun _ member => (by cases member), ?_⟩
  · rw [calls_eq, List.append_nil]
  · rw [inbox_eq, Program.sentBy, List.append_nil]

theorem refl (world : World) : Receives program forwarded world world :=
  .of_still id rfl rfl rfl

theorem trans (left : Receives program forwarded first second)
    (right : Receives program forwarded second third) :
    Receives program forwarded first third := by
  intro invoked
  have received := left invoked
  have later := right received.areInvoked
  refine ⟨fun sound => later.isSound (received.isSound sound), later.areInvoked,
    Services.callsSince first.services second.services ++
      Services.callsSince second.services third.services, ?_, fun call member => ?_, ?_⟩
  · rw [Services.calls_eq_append later.grows, Services.calls_eq_append received.grows,
      List.append_assoc]
  · exact (List.mem_append.1 member).elim (received.forwardsOnly call) (later.forwardsOnly call)
  · rw [later.inbox_eq, received.inbox_eq, Program.sentBy_append,
      ← Services.calls_eq_append received.grows, List.append_assoc]
    rfl

theorem foldl {Element : Type} {step : World → Element → World} {elements : List Element}
    (steps : ∀ world, ∀ element ∈ elements, Receives program forwarded world (step world element))
    (world : World) : Receives program forwarded world (elements.foldl step world) := by
  induction elements generalizing world with
  | nil => exact Receives.refl world
  | cons element rest ih =>
      exact (steps world element List.mem_cons_self).trans
        (ih (fun world other later => steps world other (List.mem_cons_of_mem _ later)) _)

end Receives

theorem Inward.receives (inward : Inward first second) :
    Receives program forwarded first second :=
  .of_still inward.isSound (congrArg Services.running inward.services_eq)
    (congrArg Services.calls inward.services_eq) inward.inbox_eq

namespace Receives

variable (finds : program.FindsServices)
include finds

/-- The service of a node is called. -/
theorem call (world : World) {node : NodeId} {service : Service} (notRoot : node ≠ rootId)
    (isService : program.serviceAt? node = some service) (number : Nat)
    (request : Service.Request) (may : request.ForwardsOnly forwarded) :
    Receives program forwarded world
      (world.call service ⟨number, program.chart.idOf node, request⟩).2 := by
  intro invoked
  refine ⟨id, invoked, [⟨number, program.chart.idOf node, request⟩], Array.toList_push,
    fun call member => ?_, ?_⟩
  · rw [List.mem_singleton.1 member]
    exact may
  · rw [Program.sentBy, Program.sentBy, List.append_nil, finds.replyTo_eq notRoot isService]
    rfl

/-! ## Starting -/

variable (forwarded) in
theorem startService {node : NodeId} {invocation : Invocation} (notRoot : node ≠ rootId)
    (isInvocation : (program.chart.node node).invocation = some invocation)
    (events : List Event) (active : NodeSet) (world : World) :
    let outcome := World.startService program.registry ⟨program.chart, node, events, active⟩
      invocation world
    Receives program forwarded world outcome.2 ∧
      ∀ running, outcome.1 = .ok running → program.serviceAt? node = some running.service := by
  intro outcome
  have sourced := Inward.evalSource world ⟨program.chart, node, events, active⟩ invocation
  unfold outcome World.startService
  split
  · next fault second result =>
      rw [result] at sourced
      exact ⟨sourced.receives, fun _ isOk => by cases isOk⟩
  · next source second result =>
      rw [result] at sourced
      have evaluated := Inward.evalParameters second ⟨program.chart, node, events, active⟩ []
        invocation.parameters
      split
      · next fault third result =>
          rw [result] at evaluated
          exact ⟨(sourced.trans evaluated).receives, fun _ isOk => by cases isOk⟩
      · next parameters third result =>
          rw [result] at evaluated
          have ready : Receives program forwarded world third :=
            (sourced.trans evaluated).receives
          unfold Registry.create
          cases found : Entries.find? invocation.service program.registry with
          | none => exact ⟨ready, fun _ isOk => by cases isOk⟩
          | some service =>
              have isService : program.serviceAt? node = some service := by
                rw [Program.serviceAt?, isInvocation]
                exact found
              let counted : World := { third with
                services := { third.services with created := third.services.created + 1 } }
              have counts : Receives program forwarded third counted := .of_still id rfl rfl rfl
              have made : Receives program forwarded counted _ := call finds counted notRoot
                isService third.services.created (.start source parameters) trivial
              dsimp only
              split
              · next fault fourth called =>
                  obtain ⟨-, rfl⟩ := Prod.mk.inj called
                  exact ⟨(ready.trans counts).trans made, fun _ isOk => by cases isOk⟩
              · next fourth called =>
                  obtain ⟨-, rfl⟩ := Prod.mk.inj called
                  refine ⟨(ready.trans counts).trans made, fun running isOk => ?_⟩
                  cases isOk
                  exact isService

omit finds in
theorem keepService (world : World) {node : NodeId} {running : RunningService}
    (notRoot : node ≠ rootId)
    (isService : program.serviceAt? node = some running.service) :
    Receives program forwarded world (world.keepService node running) := by
  intro invoked
  refine ⟨id, fun other known isRunning => ?_, [], (List.append_nil _).symm,
    fun _ member => (by cases member), (List.append_nil _).symm⟩
  rw [World.keepService, NodeMap.find?_insert] at isRunning
  split at isRunning
  · next same =>
      cases isRunning
      exact same ▸ ⟨notRoot, isService⟩
  · exact invoked other known isRunning

theorem startAt (events : List Event) (active : NodeSet) (world : World) {node : NodeId}
    (notRoot : node ≠ rootId) :
    Receives program forwarded world
      (World.startAt program.chart program.registry events active world node) := by
  unfold World.startAt
  split
  · exact .refl world
  · next invocation isInvocation =>
      obtain ⟨started, isService⟩ := startService forwarded finds notRoot
        isInvocation events active world
      dsimp only
      split
      · next running after result =>
          rw [result] at started isService
          refine started.trans (keepService after notRoot (isService running rfl))
      · next fault after result =>
          rw [result] at started
          exact started.trans (.of_still id rfl rfl rfl)

theorem startPending (events : List Event) {active : NodeSet} (notRoot : ¬ rootId ∈ active)
    (world : World) :
    Receives program forwarded world
      (world.startPending program.chart program.registry events active) := by
  refine Receives.foldl (fun world node pending => ?_) world
  have isActive := (List.mem_filter.1 ((Chart.mem_sortOrdered _).1 pending)).1
  refine startAt finds events active world ?_
  rintro rfl
  exact notRoot isActive

/-! ## Cancelling -/

theorem cancelService (world : World) (node : NodeId) :
    Receives program forwarded world (World.cancelService program.chart world node) := by
  intro invoked
  have permitted : Receives program forwarded world
      { world with services :=
        { world.services with suppressed := world.services.suppressed.erase node } } :=
    .of_still id rfl rfl rfl
  unfold World.cancelService
  dsimp only
  split
  · exact permitted invoked
  · next running isRunning =>
      have erased : Receives program forwarded world
          { world with services :=
            { world.services with
              suppressed := world.services.suppressed.erase node
              running := world.services.running.erase node } } := by
        intro _
        refine ⟨id, fun other known isOther => ?_, [], (List.append_nil _).symm,
          fun _ member => (by cases member), (List.append_nil _).symm⟩
        rw [NodeMap.find?_erase] at isOther
        split at isOther
        · cases isOther
        · exact invoked other known isOther
      obtain ⟨notRoot, isService⟩ := invoked node running isRunning
      have cancelled := erased.trans
        (call finds _ notRoot isService running.number .cancel trivial)
      split
      · next after called =>
          obtain ⟨-, rfl⟩ := Prod.mk.inj called
          exact cancelled invoked
      · next fault after called =>
          obtain ⟨-, rfl⟩ := Prod.mk.inj called
          refine cancelled.trans ?_ invoked
          exact .of_still id rfl rfl rfl

theorem cancelInactive (world : World) (active : NodeSet) :
    Receives program forwarded world (world.cancelInactive program.chart active) :=
  (Receives.foldl (fun world node _ => cancelService finds world node) world).trans
    (.of_still id rfl rfl rfl)

/-! ## Informing -/

theorem forwardEvent {node : NodeId} {running : RunningService} (notRoot : node ≠ rootId)
    (isService : program.serviceAt? node = some running.service) (world : World) {event : Event}
    (isGiven : event ∈ forwarded) :
    Receives program forwarded world
      (World.forwardEvent (program.chart.idOf node) running world event) := by
  have made : Receives program forwarded world _ :=
    call finds world notRoot isService running.number (.forward event) isGiven
  unfold World.forwardEvent
  split
  · next after called =>
      obtain ⟨-, rfl⟩ := Prod.mk.inj called
      exact made
  · next fault after called =>
      obtain ⟨-, rfl⟩ := Prod.mk.inj called
      exact made.trans (.of_still id rfl rfl rfl)

/-- Every event that is forwarded is one of the batch. -/
theorem forwardAll (world : World) :
    Receives program forwarded world (world.forwardAll program.chart forwarded) := by
  intro invoked
  have forwards : Receives program forwarded world
      (world.forwardAll program.chart forwarded) := by
    refine Receives.foldl (fun other entry member => ?_) world
    obtain ⟨notRoot, isService⟩ := invoked entry.1 entry.2
      ((Entries.find?_eq_some_iff world.services.running.nodup_keys).2 member)
    exact Receives.foldl (fun next event foreign =>
      forwardEvent finds notRoot isService next (List.mem_filter.1 foreign).1) other
  exact forwards invoked

end Receives

end World

end Statechart
