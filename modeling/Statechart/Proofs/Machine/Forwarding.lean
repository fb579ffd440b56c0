import Statechart.Proofs.Machine.Accounting

/-!
# Where forwarded events come from

Services are told only of events that have waited in the inbox.  If hosts push and services send
external events only, all that waits is external but for the events that tell of services which
could not be cancelled on request.  These are forwarded to the other services like any external
event.
-/

namespace Statechart

open Services (callsSince)

namespace Service

/-- A service that sends external events only. -/
def SendsExternal (service : Service) : Prop :=
  ∀ earlier call, ∀ event ∈ (service.respond earlier call).sends, event.kind = .external

end Service

namespace Program

/-- Every registered service sends external events only. -/
def SendsExternal (program : Program) : Prop :=
  ∀ entry ∈ program.registry, entry.2.SendsExternal

theorem SendsExternal.sentBy {program : Program} (external : program.SendsExternal)
    (earlier calls : List Service.Call) :
    ∀ event ∈ program.sentBy earlier calls, event.kind = .external := by
  induction calls generalizing earlier with
  | nil => exact fun _ member => by cases member
  | cons call later ih =>
      intro event member
      rcases List.mem_append.1 member with sent | sentLater
      · unfold replyTo at sent
        split at sent
        · next service found =>
            obtain ⟨node, -, isService⟩ := Option.bind_eq_some_iff.1 found
            obtain ⟨invocation, -, registered⟩ := Option.bind_eq_some_iff.1 isService
            exact external _ (Entries.mem_of_find? registered) earlier call event sent
        · cases sent
      · exact ih _ event sentLater

end Program

namespace Machine

theorem sendsExternal_equip {machine : Machine} (noneRegistered : machine.program.registry = [])
    (settings : InterpreterSettings) {services : List (String × Service)}
    (external : ∀ entry ∈ services, entry.2.SendsExternal) :
    (machine.equip settings services).program.SendsExternal := by
  refine List.foldlRecOn (motive := fun other : Machine => other.program.SendsExternal) services _
    ?_ fun other known entry member registered isEntry => ?_
  · rw [Program.SendsExternal, show (machine.withSettings settings).program.registry = [] from
      noneRegistered]
    exact fun _ member => by cases member
  · rcases Entries.mem_of_mem_insert isEntry with rfl | earlier
    · exact external entry member
    · exact known registered earlier

/-- An event that tells of a service which could not be cancelled when that was asked in a run. -/
def TellsOfRefusal (machine : Machine) (operations : List Operation) (event : Event) : Prop :=
  ∃ before id later, operations = before ++ .cancelService id :: later ∧
    event ∈ (machine.performAll before).refusalsOf id

theorem TellsOfRefusal.append {machine : Machine} {operations : List Operation} {event : Event}
    (tells : machine.TellsOfRefusal operations event) (more : List Operation) :
    machine.TellsOfRefusal (operations ++ more) event := by
  obtain ⟨before, id, later, rfl, isRefusal⟩ := tells
  refine ⟨before, id, later ++ more, ?_, isRefusal⟩
  rw [List.append_assoc, List.cons_append]

/-- What a run has led to: only external events wait or have been forwarded, and events that tell
of services which could not be cancelled on request. -/
structure KeepsToExternal (machine : Machine) (operations : List Operation) : Prop where
  areInvoked : (machine.performAll operations).world.services.AreInvoked machine.program
  waiting : ∀ event ∈ (machine.performAll operations).world.inbox,
    event.kind = .external ∨ machine.TellsOfRefusal operations event
  forwarded : ∀ call ∈ (machine.performAll operations).world.services.calls.toList,
    ∀ event, call.request = .forward event →
      event.kind = .external ∨ machine.TellsOfRefusal operations event

/-- What an operation puts into the inbox is external, except for what tells of a service that
could not be cancelled. -/
theorem mem_putUntil {machine : Machine} {operation : Operation} {world : World} {event : Event}
    (external : machine.program.SendsExternal)
    (pushes : ∀ event ∈ operation.pushed, event.kind = .external)
    (isPut : event ∈ machine.putUntil operation world) :
    event.kind = .external ∨ ∃ id, operation = .cancelService id ∧ event ∈ machine.refusalsOf id := by
  rcases List.mem_append.1 isPut with other | refusal
  · rcases List.mem_append.1 other with pushed | sent
    · exact .inl (pushes event pushed)
    · exact .inl (external.sentBy _ _ event sent)
  · cases operation with
    | cancelService id => exact .inr ⟨id, rfl, refusal⟩
    | start | step | fire | push | reset | restore => cases refusal

theorem KeepsToExternal.concat {machine : Machine} {before : List Operation}
    {operation : Operation} (keeps : machine.KeepsToExternal before)
    (finds : machine.program.FindsServices) (external : machine.program.SendsExternal)
    (pushes : ∀ event ∈ operation.pushed, event.kind = .external) :
    machine.KeepsToExternal (before ++ [operation]) := by
  let met := machine.performAll before
  have performed : machine.performAll (before ++ [operation]) = (met.perform operation).2 := by
    rw [performAll, List.foldl_append]
    rfl
  have program_eq : met.program = machine.program := (machine.succeeds_performAll before).program_eq
  have reaches : met.Reaches operation (met.perform operation).2.world :=
    (reaches_perform (program_eq ▸ finds) (program_eq ▸ keeps.areInvoked) operation).2
  -- All that is handed over, discarded or left was there before or has been put there.
  have isFit : ∀ event, event ∈ met.handedBy operation ++ met.discardedBy operation ++
      (met.perform operation).2.world.inbox →
      event.kind = .external ∨ machine.TellsOfRefusal (before ++ [operation]) event := by
    intro event member
    rw [← reaches.inbox_eq] at member
    rcases List.mem_append.1 member with waited | isPut
    · exact (keeps.waiting event waited).imp_right fun tells => tells.append [operation]
    · refine (mem_putUntil (program_eq ▸ external) pushes isPut).imp_right ?_
      rintro ⟨id, rfl, isRefusal⟩
      exact ⟨before, id, [], rfl, isRefusal⟩
  constructor
  · rw [performed]
    exact program_eq ▸ reaches.areInvoked
  · rw [performed]
    exact fun event waits => isFit event (List.mem_append_right _ waits)
  · rw [performed, Services.calls_eq_append reaches.grows]
    intro call isCall event forwards
    rcases List.mem_append.1 isCall with earlier | since
    · exact (keeps.forwarded call earlier event forwards).imp_right fun tells =>
        tells.append [operation]
    · have isHanded := reaches.forwardsOnly call since
      rw [forwards] at isHanded
      exact isFit event (List.mem_append_left _ (List.mem_append_left _ isHanded))

/-- If the host pushes external events only and services send external events only, then every
event that is ever forwarded to a service is external, or tells that another service could not
be cancelled when the host had asked for it. -/
theorem forwarded_events_are_external {chart : Chart} {model : DataModel} {machine : Machine}
    (accredited : chart.IsAccredited) (isCreated : create chart model = .ok machine)
    (settings : InterpreterSettings) {services : List (String × Service)}
    (sends : ∀ entry ∈ services, entry.2.SendsExternal) {operations : List Operation}
    (pushes : ∀ operation ∈ operations, ∀ event ∈ operation.pushed, event.kind = .external) :
    let begun := machine.equip settings services
    ∀ call ∈ (begun.performAll operations).world.services.calls.toList,
      ∀ event, call.request = .forward event →
        event.kind = .external ∨ begun.TellsOfRefusal operations event := by
  intro begun
  obtain ⟨isChart, isFresh⟩ := world_of_create isCreated settings services
  obtain ⟨finds, invoked⟩ := findsServices_of_fresh (isChart ▸ accredited.isAddressed) isFresh
  have external : begun.program.SendsExternal :=
    sendsExternal_equip (registry_of_create isCreated) settings sends
  have keeps : begun.KeepsToExternal operations := by
    induction operations using List.reverseRecOn with
    | nil =>
        refine ⟨invoked, ?_, ?_⟩
        all_goals
          rw [show begun.performAll [] = begun from rfl, isFresh]
        · exact fun event waits => by cases waits
        · exact fun call isCall => by cases isCall
    | append_singleton before operation ih =>
        refine (ih fun earlier member => pushes earlier (List.mem_append_left _ member)).concat
          finds external (pushes operation ?_)
        exact List.mem_append_right _ List.mem_cons_self
  exact keeps.forwarded

/-- A motor that cannot be cancelled. -/
def stubbornMotor : Service :=
  { respond := fun _ call =>
      match call.request with
      | .cancel => { fault := some (.cancel "stuck") }
      | .start _ _ | .forward _ => {} }

/-- The workshop with a bulb that listens to whatever it is told, beside the stubborn motor. -/
def stubbornWorkshop : Machine :=
  bareWorkshop.equip {} [("motor", stubbornMotor), ("bulb", motor)]

/-- Somebody has the motor cancelled in vain, and then rings. -/
def vainRequests : List Operation :=
  [.start, .cancelService "pressing", .fire { name := "ring" }]

theorem areExternal_stubbornWorkshop :
    (∀ entry ∈ [("motor", stubbornMotor), ("bulb", motor)], entry.2.SendsExternal) ∧
      ∀ operation ∈ vainRequests, ∀ event ∈ operation.pushed, event.kind = .external := by
  refine ⟨fun entry member earlier call event isSent => ?_, by decide⟩
  rcases List.mem_cons.1 member with rfl | other
  · unfold stubbornMotor at isSent
    dsimp only at isSent
    split at isSent <;> cases isSent
  · cases List.mem_singleton.1 other
    cases isSent

/-- Whether an internal event is forwarded. -/
def forwardsInternal (call : Service.Call) : Bool :=
  match call.request with
  | .forward event => event.kind == .internal
  | .start _ _ | .cancel => false

theorem exists_of_forwardsInternal {calls : List Service.Call}
    (some : calls.any forwardsInternal = true) :
    ∃ call ∈ calls, ∃ event, call.request = .forward event ∧ event.kind = .internal := by
  obtain ⟨call, isCall, forwards⟩ := List.any_eq_true.1 some
  unfold forwardsInternal at forwards
  split at forwards
  · next event isForward => exact ⟨call, isCall, event, isForward, eq_of_beq forwards⟩
  · cases forwards
  · cases forwards

/-- What the bulb of the stubborn workshop hears of the motor tells of its refusal. -/
theorem bulb_hears_of_refusal :
    workshopMachine.chart.IsAccredited ∧ create workshopMachine.chart {} = .ok bareWorkshop ∧
      ∃ call ∈ (stubbornWorkshop.performAll vainRequests).world.services.calls.toList,
        ∃ event, call.request = .forward event ∧ event.kind = .internal ∧
          stubbornWorkshop.TellsOfRefusal vainRequests event := by
  obtain ⟨accredited, isCreated⟩ := isAccredited_workshop
  obtain ⟨sends, pushes⟩ := areExternal_stubbornWorkshop
  obtain ⟨call, isCall, event, isForward, internal⟩ := exists_of_forwardsInternal
    (show (stubbornWorkshop.performAll vainRequests).world.services.calls.toList.any
      forwardsInternal = true by decide +kernel)
  refine ⟨accredited, isCreated, call, isCall, event, isForward, internal, ?_⟩
  refine (forwarded_events_are_external accredited isCreated {} sends pushes call isCall event
    isForward).resolve_left fun external => ?_
  cases internal.symm.trans external

/-- An event that nobody has sent is forwarded: it tells of a service that could not be
cancelled. -/
theorem internal_event_is_forwarded :
    workshopMachine.chart.IsAccredited ∧ create workshopMachine.chart {} = .ok bareWorkshop ∧
      (∀ entry ∈ [("motor", stubbornMotor), ("bulb", motor)], entry.2.SendsExternal) ∧
      (∀ operation ∈ vainRequests, ∀ event ∈ operation.pushed, event.kind = .external) ∧
      ¬ ∀ call ∈ (stubbornWorkshop.performAll vainRequests).world.services.calls.toList,
        ∀ event, call.request = .forward event → event.kind = .external := by
  obtain ⟨accredited, isCreated⟩ := isAccredited_workshop
  obtain ⟨sends, pushes⟩ := areExternal_stubbornWorkshop
  refine ⟨accredited, isCreated, sends, pushes, fun always => ?_⟩
  obtain ⟨call, isCall, event, isForward, internal⟩ := exists_of_forwardsInternal
    (show (stubbornWorkshop.performAll vainRequests).world.services.calls.toList.any
      forwardsInternal = true by decide +kernel)
  cases internal.symm.trans (always call isCall event isForward)

end Machine

end Statechart
