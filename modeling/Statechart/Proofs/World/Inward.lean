import Statechart.Machine.Macrostep
import Statechart.Proofs.DataModel
import Statechart.Proofs.World.Quiet

/-!
# Inward steps

Running actions, evaluating conditions and moving from state to state concern neither the
services nor the events that wait, and whatever is evaluated leaves the guards that are kept
sound.  Only the calls of services are not inward.
-/

namespace Statechart

namespace World

/-- A step that leaves alone the services and the events that wait, and keeps no guard that is
not what its text says. -/
structure Inward (before after : World) : Prop where
  services_eq : after.services = before.services
  inbox_eq : after.inbox = before.inbox
  isSound : before.model.IsSound → after.model.IsSound

namespace Inward

theorem refl (world : World) : Inward world world :=
  ⟨rfl, rfl, id⟩

theorem trans {first second third : World} (left : Inward first second)
    (right : Inward second third) : Inward first third :=
  ⟨right.services_eq.trans left.services_eq, right.inbox_eq.trans left.inbox_eq,
    fun sound => right.isSound (left.isSound sound)⟩

theorem foldl {Element : Type} {step : World → Element → World}
    (steps : ∀ world element, Inward world (step world element)) (elements : List Element)
    (world : World) : Inward world (elements.foldl step world) :=
  foldl_related .refl .trans steps elements world

/-! ## Telling and evaluating -/

theorem observe (world : World) (observation : Observation) :
    Inward world (world.observe observation) :=
  ⟨rfl, rfl, id⟩

theorem emit (world : World) (event : Event) : Inward world (world.emit event) :=
  ⟨rfl, rfl, id⟩

theorem modifyStatus (world : World) (change : Status → Status) :
    Inward world (world.modifyStatus change) :=
  ⟨rfl, rfl, id⟩

theorem blockFailed (world : World) (scope : Scope) (fault : ExpressionFault) :
    Inward world (world.blockFailed scope fault) :=
  ⟨rfl, rfl, id⟩

theorem evalCondition (world : World) (scope : Scope) (text : String) :
    Inward world (world.evalCondition scope text).2 := by
  have stays := fun sound : world.model.IsSound => sound.evalCondition scope.surroundings text
  unfold World.evalCondition
  generalize world.model.evalCondition scope.surroundings text = outcome at stays ⊢
  exact ⟨rfl, rfl, stays⟩

theorem evalExpression (world : World) (scope : Scope) (text : String) :
    Inward world (world.evalExpression scope text).2 := by
  have stays := fun sound : world.model.IsSound => sound.evalExpression scope.surroundings text
  unfold World.evalExpression
  generalize world.model.evalExpression scope.surroundings text = outcome at stays ⊢
  exact ⟨rfl, rfl, stays⟩

theorem execute (world : World) (scope : Scope) (action : Action) :
    Inward world (world.execute scope action).2 := by
  have stays := fun sound : world.model.IsSound => sound.execute scope.surroundings action
  unfold World.execute
  generalize world.model.execute scope.surroundings action = outcome at stays ⊢
  exact ⟨rfl, rfl, stays⟩

/-! ## Actions -/

/-- An action that is executed by the data model is inward. -/
theorem executeAction {scope : Scope} {world : World} {action : Action}
    (succeeds : ∀ after, world.execute scope action = (.ok (), after) →
      World.runAction scope world action = (after, true))
    (fails : ∀ after fault, world.execute scope action = (.error fault, after) →
      World.runAction scope world action = (after.blockFailed scope fault, false)) :
    Inward world (World.runAction scope world action).1 := by
  have executed := Inward.execute world scope action
  cases outcome : world.execute scope action with
  | mk result after =>
      rw [outcome] at executed
      cases result with
      | error fault =>
          rw [fails after fault outcome]
          exact executed.trans (.blockFailed after scope fault)
      | ok done =>
          rw [succeeds after outcome]
          exact executed

mutual

theorem runAction (scope : Scope) (world : World) (action : Action) :
    Inward world (World.runAction scope world action).1 := by
  match action with
  | .raise event =>
      rw [World.runAction]
      exact .emit world _
  | .choose condition thenBlock elseBlock =>
      have evaluated := Inward.evalCondition world scope condition
      rw [World.runAction]
      split
      · next fault next result =>
          rw [result] at evaluated
          exact evaluated.trans (.blockFailed next scope fault)
      · next next result =>
          rw [result] at evaluated
          exact evaluated.trans (runBlock scope next thenBlock)
      · next next result =>
          rw [result] at evaluated
          exact evaluated.trans (runBlock scope next elseBlock)
  | .log label expression =>
      have evaluated := Inward.evalExpression world scope expression
      rw [World.runAction]
      split
      · next fault next result =>
          rw [result] at evaluated
          exact evaluated.trans (.blockFailed next scope fault)
      · next value next result =>
          rw [result] at evaluated
          exact evaluated.trans (.observe next _)
  | .assign location expression =>
      exact executeAction (fun after done => by rw [runAction_assign, done])
        (fun after fault failed => by rw [runAction_assign, failed])
  | .script body =>
      exact executeAction (fun after done => by rw [runAction_script, done])
        (fun after fault failed => by rw [runAction_script, failed])

theorem runBlock (scope : Scope) (world : World) (block : List Action) :
    Inward world (World.runBlock scope world block).1 := by
  match block with
  | [] =>
      rw [World.runBlock]
      exact .refl world
  | action :: rest =>
      have first := runAction scope world action
      rw [World.runBlock]
      split
      · next next ran =>
          rw [ran] at first
          exact first.trans (runBlock scope next rest)
      · next next ran =>
          rw [ran] at first
          exact first

end

theorem run (world : World) (scope : Scope) (block : List Action) :
    Inward world (world.run scope block) :=
  .runBlock scope world block

/-! ## Sources and finalizing -/

theorem evalSource (world : World) (scope : Scope) (invocation : Invocation) :
    Inward world (world.evalSource scope invocation).2 := by
  unfold World.evalSource
  split
  · exact .refl world
  · next expression _ _ =>
      have evaluated := Inward.evalExpression world scope expression
      split
      · next result =>
          rw [result] at evaluated
          exact evaluated
      · next result =>
          rw [result] at evaluated
          exact evaluated
  · exact .refl world

theorem evalParameters (world : World) (scope : Scope) (found : List (String × Json.Value))
    (parameters : List Parameter) :
    Inward world (world.evalParameters scope found parameters).2 := by
  induction parameters generalizing world found with
  | nil => exact .refl world
  | cons parameter rest ih =>
      have evaluated := Inward.evalExpression world scope
        (parameter.expression.getD ("ctx." ++ parameter.name))
      unfold World.evalParameters
      dsimp only
      split
      · next result =>
          rw [result] at evaluated
          exact evaluated
      · next value next result =>
          rw [result] at evaluated
          exact evaluated.trans (ih next _)

theorem finalizeAll (world : World) (chart : Chart) (events : List Event) (active : NodeSet) :
    Inward world (world.finalizeAll chart events active) := by
  refine .foldl (fun world node => ?_) _ world
  unfold World.finalizeAt
  split
  · exact .run world _ _
  · exact .refl world

/-! ## Selection -/

theorem isEnabled (chart : Chart) (events : List Event) (active : NodeSet) (world : World)
    (id : TransitionId) : Inward world (World.isEnabled chart events active world id).2 := by
  unfold World.isEnabled
  dsimp only
  split
  · exact .refl world
  · split
    · exact .refl world
    · next condition _ =>
        have evaluated := Inward.evalCondition world
          ⟨chart, (chart.transition id).source, events, active⟩ condition
        split
        · next result =>
            rw [result] at evaluated
            exact evaluated
        · next fault next result =>
            rw [result] at evaluated
            exact evaluated.trans (.observe next _)

theorem enabledOf (chart : Chart) (events : List Event) (active : NodeSet) (world : World)
    (ids : List TransitionId) :
    Inward world (World.enabledOf chart events active world ids).2 := by
  induction ids generalizing world with
  | nil => exact .refl world
  | cons id rest ih => exact (Inward.isEnabled chart events active world id).trans (ih _)

theorem choose (world : World) (program : Program) (initial : Option TransitionId)
    (events : List Event) : Inward world (world.choose program initial events).2 := by
  cases initial with
  | some id => exact .refl world
  | none => exact .enabledOf program.chart events _ world _

theorem giveUp (world : World) (chart : Chart) (fault : ResolutionFault) :
    Inward world (world.giveUp chart fault).world := by
  cases fault with
  | illegal violations => exact .foldl (fun world _ => .observe world _) violations world
  | endless => exact .refl world

/-! ## Transitions and entries -/

theorem takeTransition (chart : Chart) (events : List Event) (active : NodeSet) (world : World)
    (id : TransitionId) : Inward world (World.takeTransition chart events active world id) := by
  unfold World.takeTransition
  exact (Inward.run world _ _).trans (.foldl (fun world _ => .observe world _) _ _)

theorem enterFinal (chart : Chart) (world : World) (node : NodeId) :
    Inward world (World.enterFinal chart world node) := by
  unfold World.enterFinal World.completeParallel
  dsimp only
  repeat' split
  all_goals exact ⟨rfl, rfl, id⟩

theorem enterState (chart : Chart) (events : List Event) (active : NodeSet)
    (resolution : Resolution) (world : World) (node : NodeId) :
    Inward world (World.enterState chart events active resolution world node) := by
  let scope : Scope := ⟨chart, node, events, active⟩
  have entered := (Inward.modifyStatus world
    (fun status => { status with done := status.done.erase node })).trans
      (.run _ scope (chart.node node).onEntry)
  have told := entered.trans
    ((Inward.observe _ (.entered (chart.idOf node))).trans (.emit _ (.ofCompletion (chart.idOf node ++ ".entry"))))
  have settled := fun ids : List TransitionId => told.trans
    (.foldl (fun world id => .run world scope (chart.transition id).actions) ids _)
  unfold World.enterState
  dsimp only
  split
  · exact (settled _).trans (enterFinal chart _ node)
  · exact settled _

end Inward

end World

end Statechart
