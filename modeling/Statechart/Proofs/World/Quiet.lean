import Statechart.Invoking
import Statechart.Microstep.Selection

/-!
# Quiet steps

Running actions, evaluating conditions, and starting, informing and cancelling
services leave alone where the machine stands, and tell observers of no entry or
exit.  Everything but exits, entries and the end of a microstep is quiet, and hushed
as well: it generates no event that tells of an entry, an exit or a completion.
Actions and conditions are solitary besides, since they have nothing to do with services,
and services that are asked to do something go on running.
-/

namespace Statechart

/-- Whether an observation tells of an entry or an exit. -/
def Observation.tellsPresence : Observation → Bool
  | .entered _ | .exited _ => true
  | _ => false

namespace World

/-- What observers have been told of entries and exits. -/
def presences (world : World) : List Observation :=
  world.observations.toList.filter Observation.tellsPresence

/-- A step that leaves alone where the machine stands, and tells of no entry or
exit. -/
structure Quiet (before after : World) : Prop where
  status_eq : after.status = before.status
  presences_eq : after.presences = before.presences

/-- The events generated so far that tell of entries, exits and completions. -/
def completions (world : World) : List Event :=
  world.generated.toList.filter Event.isCompletion

/-- A quiet step after which the events that tell of entries, exits and completions are
the same. -/
structure Hushed (before after : World) : Prop extends Quiet before after where
  completions_eq : after.completions = before.completions

/-- A hushed step that takes no notice of services. -/
structure Solitary (before after : World) : Prop extends Hushed before after where
  services_eq : after.services = before.services

/-- A hushed step after which the same services are running and suppressed, whatever they
have been asked. -/
structure Attended (before after : World) : Prop extends Hushed before after where
  running_eq : after.services.running = before.services.running
  suppressed_eq : after.services.suppressed = before.services.suppressed

/-- Steps that are related to themselves one by one are so together. -/
theorem foldl_related {Related : World → World → Prop} (refl : ∀ world, Related world world)
    (trans : ∀ {first second third}, Related first second → Related second third →
      Related first third)
    {Element : Type} {step : World → Element → World}
    (steps : ∀ world element, Related world (step world element)) (elements : List Element)
    (world : World) : Related world (elements.foldl step world) := by
  induction elements generalizing world with
  | nil => exact refl world
  | cons element rest ih => exact trans (steps world element) (ih (step world element))

theorem presences_observe (world : World) (observation : Observation) :
    (world.observe observation).presences =
      world.presences ++ [observation].filter Observation.tellsPresence := by
  simp [presences, observe]

theorem completions_emit (world : World) (event : Event) :
    (world.emit event).completions =
      world.completions ++ [event].filter Event.isCompletion := by
  simp [completions, emit]

theorem runAction_assign (scope : Scope) (world : World) (location expression : String) :
    runAction scope world (.assign location expression) =
      match world.execute scope (.assign location expression) with
      | (.error fault, world) => (world.blockFailed scope fault, false)
      | (.ok (), world) => (world, true) := by
  cases outcome : world.execute scope (.assign location expression) with
  | mk result next => cases result <;> simp only [runAction, outcome]

theorem runAction_script (scope : Scope) (world : World) (body : String) :
    runAction scope world (.script body) =
      match world.execute scope (.script body) with
      | (.error fault, world) => (world.blockFailed scope fault, false)
      | (.ok (), world) => (world, true) := by
  cases outcome : world.execute scope (.script body) with
  | mk result next => cases result <;> simp only [runAction, outcome]

namespace Quiet

theorem refl (world : World) : Quiet world world :=
  ⟨rfl, rfl⟩

theorem trans {first second third : World} (left : Quiet first second)
    (right : Quiet second third) : Quiet first third :=
  ⟨right.status_eq.trans left.status_eq, right.presences_eq.trans left.presences_eq⟩

theorem emit (world : World) (event : Event) : Quiet world (world.emit event) :=
  ⟨rfl, rfl⟩

end Quiet

namespace Hushed

theorem refl (world : World) : Hushed world world :=
  ⟨⟨rfl, rfl⟩, rfl⟩

theorem trans {first second third : World} (left : Hushed first second)
    (right : Hushed second third) : Hushed first third :=
  ⟨left.toQuiet.trans right.toQuiet, right.completions_eq.trans left.completions_eq⟩

theorem foldl {Element : Type} {step : World → Element → World}
    (steps : ∀ world element, Hushed world (step world element)) (elements : List Element)
    (world : World) : Hushed world (elements.foldl step world) :=
  foldl_related .refl .trans steps elements world

end Hushed

namespace Solitary

theorem refl (world : World) : Solitary world world :=
  ⟨⟨⟨rfl, rfl⟩, rfl⟩, rfl⟩

theorem trans {first second third : World} (left : Solitary first second)
    (right : Solitary second third) : Solitary first third :=
  ⟨left.toHushed.trans right.toHushed, right.services_eq.trans left.services_eq⟩

theorem foldl {Element : Type} {step : World → Element → World}
    (steps : ∀ world element, Solitary world (step world element)) (elements : List Element)
    (world : World) : Solitary world (elements.foldl step world) :=
  foldl_related .refl .trans steps elements world

/-! ## Telling and evaluating -/

theorem observe (world : World) {observation : Observation}
    (silent : observation.tellsPresence = false) : Solitary world (world.observe observation) := by
  refine ⟨⟨⟨rfl, ?_⟩, rfl⟩, rfl⟩
  simp [presences_observe, silent]

theorem report (world : World) (code : ReportCode) (detail source : String) :
    Solitary world (world.report code detail source) :=
  .observe world rfl

theorem emit (world : World) {event : Event} (silent : event.isCompletion = false) :
    Solitary world (world.emit event) := by
  refine ⟨⟨⟨rfl, rfl⟩, ?_⟩, rfl⟩
  simp [completions_emit, silent]

theorem post (world : World) (event : Event) : Solitary world (world.post event) :=
  ⟨⟨⟨rfl, rfl⟩, rfl⟩, rfl⟩

theorem blockFailed (world : World) (scope : Scope) (fault : ExpressionFault) :
    Solitary world (world.blockFailed scope fault) :=
  (Solitary.report world _ _ _).trans (.emit _ rfl)

theorem evalCondition (world : World) (scope : Scope) (text : String) :
    Solitary world (world.evalCondition scope text).2 := by
  unfold World.evalCondition
  obtain ⟨result, model⟩ := world.model.evalCondition scope.surroundings text
  exact ⟨⟨⟨rfl, rfl⟩, rfl⟩, rfl⟩

theorem evalExpression (world : World) (scope : Scope) (text : String) :
    Solitary world (world.evalExpression scope text).2 := by
  unfold World.evalExpression
  obtain ⟨result, model⟩ := world.model.evalExpression scope.surroundings text
  exact ⟨⟨⟨rfl, rfl⟩, rfl⟩, rfl⟩

theorem execute (world : World) (scope : Scope) (action : Action) :
    Solitary world (world.execute scope action).2 := by
  unfold World.execute
  obtain ⟨result, model⟩ := world.model.execute scope.surroundings action
  exact ⟨⟨⟨rfl, rfl⟩, rfl⟩, rfl⟩

/-! ## Actions -/

/-- An action that is executed by the data model is quiet. -/
theorem executeAction (scope : Scope) (world : World) (action : Action)
    (executes : World.runAction scope world action =
      match world.execute scope action with
      | (.error fault, world) => (world.blockFailed scope fault, false)
      | (.ok (), world) => (world, true)) :
    Solitary world (World.runAction scope world action).1 := by
  have executed := Solitary.execute world scope action
  rw [executes]
  split
  · next fault next result =>
      rw [result] at executed
      exact executed.trans (.blockFailed next scope fault)
  · next next result =>
      rw [result] at executed
      exact executed

mutual

theorem runAction (scope : Scope) (world : World) (action : Action) :
    Solitary world (World.runAction scope world action).1 := by
  match action with
  | .raise event =>
      rw [World.runAction]
      exact .emit world rfl
  | .choose condition thenBlock elseBlock =>
      have evaluated := Solitary.evalCondition world scope condition
      rw [World.runAction]
      split
      · next fault next result =>
          rw [result] at evaluated
          exact evaluated.trans (.blockFailed next scope fault)
      · next next result =>
          rw [result] at evaluated
          exact evaluated.trans (runBlock scope next thenBlock)
      · next next result =>
          rw [result] at evaluated
          exact evaluated.trans (runBlock scope next elseBlock)
  | .log label expression =>
      have evaluated := Solitary.evalExpression world scope expression
      rw [World.runAction]
      split
      · next fault next result =>
          rw [result] at evaluated
          exact evaluated.trans (.blockFailed next scope fault)
      · next value next result =>
          rw [result] at evaluated
          exact evaluated.trans (.observe next rfl)
  | .assign location expression =>
      exact executeAction scope world _ (runAction_assign scope world location expression)
  | .script body => exact executeAction scope world _ (runAction_script scope world body)

theorem runBlock (scope : Scope) (world : World) (block : List Action) :
    Solitary world (World.runBlock scope world block).1 := by
  match block with
  | [] =>
      rw [World.runBlock]
      exact .refl world
  | action :: rest =>
      have first := runAction scope world action
      rw [World.runBlock]
      split
      · next next ran =>
          rw [ran] at first
          exact first.trans (runBlock scope next rest)
      · next next ran =>
          rw [ran] at first
          exact first

end

theorem run (world : World) (scope : Scope) (block : List Action) :
    Solitary world (world.run scope block) :=
  .runBlock scope world block

/-! ## Sources and finalizing -/

theorem evalSource (world : World) (scope : Scope) (invocation : Invocation) :
    Solitary world (world.evalSource scope invocation).2 := by
  unfold World.evalSource
  split
  · exact .refl world
  · next expression _ _ =>
      have evaluated := Solitary.evalExpression world scope expression
      split
      · next result =>
          rw [result] at evaluated
          exact evaluated
      · next result =>
          rw [result] at evaluated
          exact evaluated
  · exact .refl world

theorem evalParameters (world : World) (scope : Scope) (found : List (String × Json.Value))
    (parameters : List Parameter) :
    Solitary world (world.evalParameters scope found parameters).2 := by
  induction parameters generalizing world found with
  | nil => exact .refl world
  | cons parameter rest ih =>
      have evaluated := Solitary.evalExpression world scope
        (parameter.expression.getD ("ctx." ++ parameter.name))
      unfold World.evalParameters
      dsimp only
      split
      · next result =>
          rw [result] at evaluated
          exact evaluated
      · next value next result =>
          rw [result] at evaluated
          exact evaluated.trans (ih next _)

theorem finalizeAt (chart : Chart) (events : List Event) (active : NodeSet) (world : World)
    (node : NodeId) : Solitary world (World.finalizeAt chart events active world node) := by
  unfold World.finalizeAt
  split
  · exact .run world _ _
  · exact .refl world

theorem finalizeAll (world : World) (chart : Chart) (events : List Event) (active : NodeSet) :
    Solitary world (world.finalizeAll chart events active) :=
  .foldl (.finalizeAt chart events active) _ world

/-! ## Selection -/

theorem isEnabled (chart : Chart) (events : List Event) (active : NodeSet) (world : World)
    (id : TransitionId) : Solitary world (World.isEnabled chart events active world id).2 := by
  unfold World.isEnabled
  dsimp only
  split
  · exact .refl world
  · split
    · exact .refl world
    · next condition _ =>
        have evaluated := Solitary.evalCondition world
          ⟨chart, (chart.transition id).source, events, active⟩ condition
        split
        · next result =>
            rw [result] at evaluated
            exact evaluated
        · next fault next result =>
            rw [result] at evaluated
            exact evaluated.trans (.report next _ _ _)

theorem enabledOf (chart : Chart) (events : List Event) (active : NodeSet) (world : World)
    (ids : List TransitionId) :
    Solitary world (World.enabledOf chart events active world ids).2 := by
  induction ids generalizing world with
  | nil => exact .refl world
  | cons id rest ih => exact (Solitary.isEnabled chart events active world id).trans (ih _)

theorem select (world : World) (chart : Chart) (events : List Event) :
    Solitary world (world.select chart events).2 :=
  .enabledOf chart events _ world _

end Solitary

/-! ## Asking services -/

theorem Solitary.attended {before after : World} (solitary : Solitary before after) :
    Attended before after :=
  ⟨solitary.toHushed, congrArg Services.running solitary.services_eq,
    congrArg Services.suppressed solitary.services_eq⟩

namespace Attended

theorem trans {first second third : World} (left : Attended first second)
    (right : Attended second third) : Attended first third :=
  ⟨left.toHushed.trans right.toHushed, right.running_eq.trans left.running_eq,
    right.suppressed_eq.trans left.suppressed_eq⟩

theorem foldl {Element : Type} {step : World → Element → World}
    (steps : ∀ world element, Attended world (step world element)) (elements : List Element)
    (world : World) : Attended world (elements.foldl step world) :=
  foldl_related (fun world => (Solitary.refl world).attended) .trans steps elements world

theorem call (world : World) (service : Service) (made : Service.Call) :
    Attended world (world.call service made).2 := by
  have told : Solitary world (world.observe (.called made)) := .observe world rfl
  exact ⟨⟨⟨told.status_eq, told.presences_eq⟩, told.completions_eq⟩, rfl, rfl⟩

theorem startService (registry : Registry) (scope : Scope) (invocation : Invocation)
    (world : World) : Attended world (World.startService registry scope invocation world).2 := by
  have sourced := Solitary.evalSource world scope invocation
  unfold World.startService
  split
  · next result =>
      rw [result] at sourced
      exact sourced.attended
  · next source second result =>
      rw [result] at sourced
      have evaluated := Solitary.evalParameters second scope [] invocation.parameters
      split
      · next outcome =>
          rw [outcome] at evaluated
          exact (sourced.trans evaluated).attended
      · next parameters third outcome =>
          rw [outcome] at evaluated
          have ready := (sourced.trans evaluated).attended
          split
          · exact ready
          · next service _ =>
              let counted : World := { third with
                services := { third.services with created := third.services.created + 1 } }
              have made := Attended.call counted service
                ⟨third.services.created, scope.stateId, .start source parameters⟩
              have counts : Attended third counted := ⟨⟨⟨rfl, rfl⟩, rfl⟩, rfl, rfl⟩
              dsimp only
              split
              · next answer =>
                  rw [answer] at made
                  exact ready.trans (counts.trans made)
              · next answer =>
                  rw [answer] at made
                  exact ready.trans (counts.trans made)

theorem forwardEvent (state : String) (running : RunningService) (world : World) (event : Event) :
    Attended world (World.forwardEvent state running world event) := by
  have made := Attended.call world running.service ⟨running.number, state, .forward event⟩
  unfold World.forwardEvent
  split
  · next result =>
      rw [result] at made
      exact made
  · next fault next result =>
      rw [result] at made
      exact made.trans ((Solitary.report next _ _ _).trans (.emit _ rfl)).attended

theorem forwardTo (chart : Chart) (events : List Event) (world : World)
    (entry : NodeId × RunningService) :
    Attended world (World.forwardTo chart events world entry) :=
  .foldl (.forwardEvent (chart.idOf entry.1) entry.2) _ world

theorem forwardAll (world : World) (chart : Chart) (events : List Event) :
    Attended world (world.forwardAll chart events) :=
  .foldl (.forwardTo chart events) _ world

end Attended

/-! ## Starting and cancelling services -/

namespace Hushed

theorem startAt (chart : Chart) (registry : Registry) (events : List Event) (active : NodeSet)
    (world : World) (node : NodeId) :
    Hushed world (World.startAt chart registry events active world node) := by
  unfold World.startAt
  split
  · exact .refl world
  · next invocation _ =>
      have started :=
        (Attended.startService registry ⟨chart, node, events, active⟩ invocation world).toHushed
      dsimp only
      split
      · next result =>
          rw [result] at started
          exact started.trans ⟨⟨rfl, rfl⟩, rfl⟩
      · next fault next result =>
          rw [result] at started
          have told : Solitary next ((next.report .invokeFailed fault.message
              (chart.idOf node)).emit (.ofMachine (servicePrefix (chart.idOf node) ++ "failed"))) :=
            (Solitary.report next _ _ _).trans (.emit _ rfl)
          exact (started.trans told.toHushed).trans ⟨⟨rfl, rfl⟩, rfl⟩

theorem startPending (world : World) (chart : Chart) (registry : Registry) (events : List Event)
    (active : NodeSet) : Hushed world (world.startPending chart registry events active) :=
  .foldl (.startAt chart registry events active) _ world

theorem cancelService (chart : Chart) (world : World) (node : NodeId) :
    Hushed world (World.cancelService chart world node) := by
  unfold World.cancelService
  dsimp only
  split
  · exact ⟨⟨rfl, rfl⟩, rfl⟩
  · next running _ =>
      let services : Services :=
        { world.services with
          suppressed := world.services.suppressed.erase node
          running := world.services.running.erase node }
      have cleared : Hushed world { world with services } := ⟨⟨rfl, rfl⟩, rfl⟩
      have made := (Attended.call { world with services } running.service
        ⟨running.number, chart.idOf node, .cancel⟩).toHushed
      split
      · next next result =>
          rw [result] at made
          exact cleared.trans made
      · next fault next result =>
          rw [result] at made
          exact (cleared.trans made).trans
            ((Solitary.report next _ _ _).trans (.emit _ rfl)).toHushed

theorem cancelInactive (world : World) (chart : Chart) (active : NodeSet) :
    Hushed world (world.cancelInactive chart active) := by
  have cancelled : Hushed world _ := .foldl (.cancelService chart)
    (world.services.running.keys.filter (fun node => !active.contains node)) world
  exact ⟨⟨cancelled.status_eq, cancelled.presences_eq⟩, rfl⟩

end Hushed

end World

end Statechart
