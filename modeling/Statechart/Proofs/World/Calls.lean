import Statechart.Machine.Macrostep
import Statechart.Proofs.World.Services

/-!
# Calls of services

Whatever happens to the services of a machine happens in steps: an instance is created for a
state that waits for one, and its start succeeds or fails; a running instance is told of an
event, or is cancelled and runs no longer; and states are suppressed or not.  Each call goes
on record, so what was called since some moment can be read off the record.
-/

namespace Statechart

namespace Service.Request

def isStart : Request → Bool
  | .start _ _ => true
  | _ => false

def isCancel : Request → Bool
  | .cancel => true
  | _ => false

theorem isStart_of_isCancel {request : Request} (cancels : request.isCancel = true) :
    request.isStart = false := by
  cases request with
  | cancel => rfl
  | start | forward => cases cancels

end Service.Request

/-- The service that a node invokes, if one of its type is registered. -/
def Program.serviceAt? (program : Program) (node : NodeId) : Option Service :=
  (program.chart.node node).invocation.bind
    (fun invocation => Entries.find? invocation.service program.registry)

namespace Services

/-- The call that asks the next instance, created for a node, to start. -/
def startCall (services : Services) (chart : Chart) (node : NodeId) (source : String)
    (parameters : List (String × Json.Value)) : Service.Call :=
  ⟨services.created, chart.idOf node, .start source parameters⟩

/-- What may be called for a node, and what runs and has been created after the call. -/
inductive Allows (program : Program) (services : Services) (node : NodeId) :
    Service.Call → NodeMap RunningService → Nat → Prop
  | started {service : Service} {source : String} {parameters : List (String × Json.Value)}
      (awaits : World.awaitsStart program.chart services node = true)
      (isService : program.serviceAt? node = some service)
      (accepts : (service.respond services.calls.toList
        (services.startCall program.chart node source parameters)).fault = none) :
      Allows program services node (services.startCall program.chart node source parameters)
        (services.running.insert node ⟨services.created, service⟩) (services.created + 1)
  | refused {service : Service} {source : String} {parameters : List (String × Json.Value)}
      {fault : ServiceFault}
      (awaits : World.awaitsStart program.chart services node = true)
      (isService : program.serviceAt? node = some service)
      (refuses : (service.respond services.calls.toList
        (services.startCall program.chart node source parameters)).fault = some fault) :
      Allows program services node (services.startCall program.chart node source parameters)
        services.running (services.created + 1)
  | forwarded {running : RunningService} (event : Event)
      (isRunning : services.running.find? node = some running) :
      Allows program services node ⟨running.number, program.chart.idOf node, .forward event⟩
        services.running services.created
  | cancelled {running : RunningService}
      (isRunning : services.running.find? node = some running) :
      Allows program services node ⟨running.number, program.chart.idOf node, .cancel⟩
        (services.running.erase node) services.created

/-- What can happen to the services of a program if only certain calls are made for certain
nodes. -/
inductive Step (program : Program) (May : NodeId → Service.Call → Prop) :
    Services → Services → Prop
  | called {services : Services} {node : NodeId} {call : Service.Call}
      {running : NodeMap RunningService} {created : Nat}
      (allows : services.Allows program node call running created) (may : May node call) :
      Step program May services
        { services with running, created, calls := services.calls.push call }
  | suppressed (services : Services) (suppressed : NodeSet) :
      Step program May services { services with suppressed }

/-- Calls that ask an instance to start are only made for certain nodes. -/
def StartsOnly (Fit : NodeId → Prop) (node : NodeId) (call : Service.Call) : Prop :=
  call.request.isStart = true → Fit node

/-- Any number of steps. -/
inductive Steps (program : Program) (May : NodeId → Service.Call → Prop) :
    Services → Services → Prop
  | refl (services : Services) : Steps program May services services
  | tail {first second third : Services} (steps : Steps program May first second)
      (step : Step program May second third) : Steps program May first third

/-- The calls made since some moment. -/
def callsSince (before after : Services) : List Service.Call :=
  after.calls.toList.drop before.calls.size

variable {program : Program} {May More : NodeId → Service.Call → Prop}
  {first second third : Services}

theorem Allows.state_eq {node : NodeId} {call : Service.Call} {running : NodeMap RunningService}
    {created : Nat} (allows : first.Allows program node call running created) :
    call.state = program.chart.idOf node := by
  cases allows <;> rfl

theorem callsSince_of_eq_append {calls : List Service.Call}
    (extended : second.calls.toList = first.calls.toList ++ calls) :
    callsSince first second = calls := by
  rw [callsSince, extended, ← Array.length_toList, List.drop_left]

theorem callsSince_of_eq (same : second.calls = first.calls) : callsSince first second = [] :=
  callsSince_of_eq_append (by rw [same, List.append_nil])

theorem callsSince_of_push {call : Service.Call} (pushed : second.calls = first.calls.push call) :
    callsSince first second = [call] :=
  callsSince_of_eq_append (by rw [pushed, Array.toList_push])

namespace Steps

theorem single (step : Step program May first second) : Steps program May first second :=
  (Steps.refl first).tail step

theorem of_eq (same : second = first) : Steps program May first second :=
  same ▸ .refl second

theorem trans (left : Steps program May first second) (right : Steps program May second third) :
    Steps program May first third := by
  induction right with
  | refl => exact left
  | tail _ step ih => exact ih.tail step

theorem mono (steps : Steps program May first second)
    (more : ∀ node call, May node call → More node call) : Steps program More first second := by
  induction steps with
  | refl => exact .refl first
  | tail _ step ih =>
      cases step with
      | called allows may => exact ih.tail (.called allows (more _ _ may))
      | suppressed suppressed => exact ih.tail (.suppressed _ suppressed)

/-- The record only grows. -/
theorem calls_eq (steps : Steps program May first second) :
    second.calls.toList = first.calls.toList ++ callsSince first second := by
  suffices extended : ∃ calls, second.calls.toList = first.calls.toList ++ calls by
    obtain ⟨calls, extended⟩ := extended
    rw [callsSince_of_eq_append extended]
    exact extended
  induction steps with
  | refl => exact ⟨[], (List.append_nil _).symm⟩
  | tail _ step ih =>
      obtain ⟨calls, extended⟩ := ih
      cases step with
      | @called _ call _ _ _ _ =>
          refine ⟨calls ++ [call], ?_⟩
          rw [Array.toList_push, extended, List.append_assoc]
      | suppressed suppressed => exact ⟨calls, extended⟩

theorem callsSince_trans (left : Steps program May first second)
    (right : Steps program More second third) :
    callsSince first third = callsSince first second ++ callsSince second third := by
  refine callsSince_of_eq_append ?_
  rw [right.calls_eq, ← List.append_assoc, ← left.calls_eq]

/-- Only calls that go on record are made. -/
theorem within (steps : Steps program May first second) :
    Steps program (fun node call => May node call ∧ call ∈ callsSince first second)
      first second := by
  induction steps with
  | refl => exact .refl first
  | tail steps step ih =>
      have grows := steps.callsSince_trans (.single step)
      have earlier := ih.mono fun node call may =>
        (⟨may.1, grows ▸ List.mem_append_left _ may.2⟩ : May node call ∧ call ∈ callsSince first _)
      cases step with
      | called allows may =>
          refine earlier.tail (.called allows ⟨may, ?_⟩)
          rw [grows]
          refine List.mem_append_right _ ?_
          rw [callsSince_of_push rfl]
          exact List.mem_cons_self
      | suppressed suppressed => exact earlier.tail (.suppressed _ suppressed)

/-- Every call on record was allowed for a node of its state. -/
theorem of_mem_callsSince (steps : Steps program May first second) {call : Service.Call}
    (isCall : call ∈ callsSince first second) :
    ∃ node, May node call ∧ call.state = program.chart.idOf node := by
  induction steps with
  | refl =>
      rw [callsSince_of_eq rfl] at isCall
      cases isCall
  | tail steps step ih =>
      rw [steps.callsSince_trans (.single step)] at isCall
      rcases List.mem_append.1 isCall with earlier | last
      · exact ih earlier
      · cases step with
        | @called node _ _ _ allows may =>
            rw [callsSince_of_push rfl, List.mem_singleton] at last
            exact ⟨node, last ▸ may, last ▸ allows.state_eq⟩
        | suppressed suppressed =>
            rw [callsSince_of_eq] at last
            · cases last
            · rfl

end Steps

end Services

namespace World

open Services (Steps StartsOnly)

variable {program : Program} {May : NodeId → Service.Call → Prop} {Fit : NodeId → Prop}

theorem Solitary.steps {before after : World} (solitary : Solitary before after) :
    Steps program May before.services after.services :=
  .of_eq solitary.services_eq

/-! ## Starting -/

/-- Starting a service fails before an instance is created, or a new instance is asked to
start and its answer tells whether it runs. -/
theorem startService_cases {node : NodeId} {invocation : Invocation}
    (isInvocation : (program.chart.node node).invocation = some invocation)
    (events : List Event) (active : NodeSet) (world : World) :
    let outcome := startService program.registry ⟨program.chart, node, events, active⟩
      invocation world
    (∃ fault, outcome.1 = .error fault ∧ outcome.2.services = world.services) ∨
      ∃ service source parameters, program.serviceAt? node = some service ∧
        let call := world.services.startCall program.chart node source parameters
        outcome.2.services = { world.services with
          created := world.services.created + 1, calls := world.services.calls.push call } ∧
        let answer := (service.respond world.services.calls.toList call).fault
        (answer = none ∧ outcome.1 = .ok ⟨world.services.created, service⟩ ∨
          ∃ fault, answer = some fault ∧ outcome.1 = .error fault) := by
  intro outcome
  have sourced := Solitary.evalSource world ⟨program.chart, node, events, active⟩ invocation
  unfold outcome startService
  split
  · next fault second result =>
      rw [result] at sourced
      exact .inl ⟨fault, rfl, sourced.services_eq⟩
  · next source second result =>
      rw [result] at sourced
      have evaluated := Solitary.evalParameters second ⟨program.chart, node, events, active⟩ []
        invocation.parameters
      split
      · next fault third result =>
          rw [result] at evaluated
          exact .inl ⟨fault, rfl, evaluated.services_eq.trans sourced.services_eq⟩
      · next parameters third result =>
          rw [result] at evaluated
          have same := evaluated.services_eq.trans sourced.services_eq
          unfold Registry.create
          cases found : Entries.find? invocation.service program.registry with
          | none => exact .inl ⟨_, rfl, same⟩
          | some service =>
              have isService : program.serviceAt? node = some service := by
                rw [Program.serviceAt?, isInvocation]
                exact found
              refine .inr ⟨service, source, parameters, isService, ?_⟩
              rw [← same]
              dsimp only
              split
              · next fault fourth called =>
                  obtain ⟨refuses, rfl⟩ := Prod.mk.inj called
                  exact ⟨rfl, .inr ⟨fault, refuses, rfl⟩⟩
              · next fourth called =>
                  obtain ⟨accepts, rfl⟩ := Prod.mk.inj called
                  exact ⟨rfl, .inl ⟨accepts, rfl⟩⟩

/-- A service that awaits its start is asked to start, or fails before that. -/
theorem steps_startAt {node : NodeId} (events : List Event) (active : NodeSet) {world : World}
    (awaits : awaitsStart program.chart world.services node = true) (fits : Fit node) :
    Steps program (StartsOnly Fit) world.services
      (startAt program.chart program.registry events active world node).services := by
  obtain ⟨invocation, isInvocation⟩ := Option.isSome_iff_exists.1 (awaitsStart_iff.1 awaits).1
  have started := startService_cases isInvocation events active world
  have may : ∀ call, StartsOnly Fit node call := fun _ _ => fits
  unfold startAt
  rw [isInvocation]
  dsimp only at started ⊢
  split
  · next service after result =>
      rw [result] at started
      obtain ⟨_, isError, -⟩ | ⟨service, source, parameters, isService, services,
        ⟨accepts, same⟩ | ⟨_, -, isError⟩⟩ := started
      · cases isError
      · cases same
        rw [keepService, services]
        exact .single (.called (.started awaits isService accepts) (may _))
      · cases isError
  · next fault after result =>
      rw [result] at started
      obtain ⟨_, -, services⟩ | ⟨service, source, parameters, isService, services,
        ⟨_, isOk⟩ | ⟨_, refuses, -⟩⟩ := started
      · rw [suppress, emit, report, observe, services]
        exact .single (.suppressed _ _)
      · cases isOk
      · rw [suppress, emit, report, observe, services]
        exact (Steps.single (.called (.refused awaits isService refuses) (may _))).tail
          (.suppressed _ _)

/-- To start the service of one state serves no other. -/
theorem awaitsStart_startAt {chart : Chart} (registry : Registry) (events : List Event)
    (active : NodeSet) (world : World) {node other : NodeId} (different : other ≠ node) :
    awaitsStart chart (startAt chart registry events active world node).services other =
      awaitsStart chart world.services other := by
  by_cases invokes : (chart.node node).invocation.isSome = true
  · obtain ⟨asked, attended, ⟨service, result⟩ | result⟩ :=
      startAt_cases chart registry events active world invokes
    · rw [result, Bool.eq_iff_iff, awaitsStart_iff, awaitsStart_iff]
      simp only [Services.IsServed, keepService, NodeMap.contains_insert, attended.running_eq,
        attended.suppressed_eq, different, false_or]
    · rw [result, Bool.eq_iff_iff, awaitsStart_iff, awaitsStart_iff]
      simp only [Services.IsServed, suppress, NodeSet.mem_insert, attended.running_eq,
        attended.suppressed_eq, different, false_or]
  · rw [startAt, Option.not_isSome_iff_eq_none.1 invokes]

theorem steps_foldl_startAt (events : List Event) (active : NodeSet) {nodes : List NodeId}
    (distinct : nodes.Nodup) {world : World}
    (await : ∀ node ∈ nodes, awaitsStart program.chart world.services node = true)
    (fit : ∀ node ∈ nodes, Fit node) :
    Steps program (StartsOnly Fit) world.services
      (nodes.foldl (startAt program.chart program.registry events active) world).services := by
  induction nodes generalizing world with
  | nil => exact .refl _
  | cons node rest ih =>
      obtain ⟨notLater, restDistinct⟩ := List.nodup_cons.1 distinct
      have first := steps_startAt events active (await node List.mem_cons_self)
        (fit node List.mem_cons_self)
      refine first.trans (ih restDistinct (fun other later => ?_)
        (fun other later => fit other (List.mem_cons_of_mem _ later)))
      have different : other ≠ node := by
        rintro rfl
        exact notLater later
      rw [awaitsStart_startAt _ _ _ _ different]
      exact await other (List.mem_cons_of_mem _ later)

/-- Services are started for active states that await their start. -/
theorem steps_startPending (world : World) (events : List Event) (active : NodeSet) :
    Steps program (StartsOnly fun node =>
        node ∈ active ∧ awaitsStart program.chart world.services node = true)
      world.services
      (world.startPending program.chart program.registry events active).services := by
  have isPending : ∀ node, node ∈ program.chart.inDocumentOrder
      (active.toList.filter (awaitsStart program.chart world.services)) →
      node ∈ active ∧ awaitsStart program.chart world.services node = true :=
    fun node member => List.mem_filter.1 ((Chart.mem_sortOrdered _).1 member)
  exact steps_foldl_startAt events active
    (Chart.nodup_sortOrdered _ (active.nodup_toList.filter _))
    (fun node member => (isPending node member).2) isPending

/-! ## Cancelling -/

theorem steps_cancelService (world : World) (node : NodeId) :
    Steps program (StartsOnly Fit) world.services
      (cancelService program.chart world node).services := by
  let permitted : Services :=
    { world.services with suppressed := world.services.suppressed.erase node }
  have permits : Steps program (StartsOnly Fit) world.services permitted :=
    .single (.suppressed _ _)
  unfold cancelService
  dsimp only
  split
  · exact permits
  · next running isRunning =>
      have cancelled : Services.Step program (StartsOnly Fit) permitted _ :=
        .called (.cancelled isRunning) (fun isStart => by cases isStart)
      split
      · next after result =>
          obtain ⟨-, rfl⟩ := Prod.mk.inj result
          exact permits.tail cancelled
      · next fault after result =>
          obtain ⟨-, rfl⟩ := Prod.mk.inj result
          exact permits.tail cancelled

/-- What each of several steps does with the services they do together. -/
theorem steps_foldl {Element : Type} {step : World → Element → World}
    (steps : ∀ world element, Steps program May world.services (step world element).services)
    (elements : List Element) (world : World) :
    Steps program May world.services (elements.foldl step world).services := by
  induction elements generalizing world with
  | nil => exact .refl _
  | cons element rest ih => exact (steps world element).trans (ih (step world element))

theorem steps_cancelInactive (world : World) (active : NodeSet) :
    Steps program (StartsOnly Fit) world.services
      (world.cancelInactive program.chart active).services :=
  (steps_foldl steps_cancelService _ world).tail (.suppressed _ _)

/-! ## Informing -/

theorem steps_forwardEvent {node : NodeId} {running : RunningService} {world : World}
    (isRunning : world.services.running.find? node = some running) (event : Event) :
    Steps program (StartsOnly Fit) world.services
      (forwardEvent (program.chart.idOf node) running world event).services := by
  have forwarded : Services.Step program (StartsOnly Fit) world.services _ :=
    .called (.forwarded event isRunning) (fun isStart => by cases isStart)
  unfold forwardEvent
  split
  · next after result =>
      obtain ⟨-, rfl⟩ := Prod.mk.inj result
      exact .single forwarded
  · next fault after result =>
      obtain ⟨-, rfl⟩ := Prod.mk.inj result
      exact .single forwarded

theorem steps_forwardTo {node : NodeId} {running : RunningService} (events : List Event)
    {world : World} (isRunning : world.services.running.find? node = some running) :
    Steps program (StartsOnly Fit) world.services
      (forwardTo program.chart events world (node, running)).services := by
  unfold forwardTo
  dsimp only
  induction events.filter _ generalizing world with
  | nil => exact .refl _
  | cons event rest ih =>
      have told := Attended.forwardEvent (program.chart.idOf node) running world event
      exact (steps_forwardEvent isRunning event).trans (ih (told.running_eq ▸ isRunning))

theorem steps_foldl_forwardTo (events : List Event) {entries : List (NodeId × RunningService)}
    {world : World}
    (areRunning : ∀ entry ∈ entries, world.services.running.find? entry.1 = some entry.2) :
    Steps program (StartsOnly Fit) world.services
      (entries.foldl (forwardTo program.chart events) world).services := by
  induction entries generalizing world with
  | nil => exact .refl _
  | cons entry rest ih =>
      have told := Attended.forwardTo program.chart events world entry
      refine (steps_forwardTo events (areRunning entry List.mem_cons_self)).trans (ih ?_)
      rw [told.running_eq]
      exact fun other later => areRunning other (List.mem_cons_of_mem _ later)

/-- Events are forwarded to the instances that run. -/
theorem steps_forwardAll (world : World) (events : List Event) :
    Steps program (StartsOnly Fit) world.services
      (world.forwardAll program.chart events).services :=
  steps_foldl_forwardTo events fun _ member =>
    (Entries.find?_eq_some_iff world.services.running.nodup_keys).2 member

end World

end Statechart
