import Statechart.Proofs.DataModel
import Statechart.Proofs.Microstep.Execution

/-!
# Twin worlds

Without services, the context, the status and the events that wait decide what happens
next.  Worlds that have these in common are alike; if the same events have been generated
in them too, they are twins.  Whatever is done in twin worlds has the same result and
leaves twins, however much observers have been told in either.
-/

namespace Statechart

/-- No state invokes a service. -/
def Chart.InvokesNothing (chart : Chart) : Prop :=
  ∀ node, (chart.node node).invocation = none

namespace World

/-- Two worlds without services that have in common what decides about the next
macrostep. -/
structure Alike (first second : World) : Prop where
  model : first.model.Agree second.model
  status_eq : first.status = second.status
  inbox_eq : first.inbox = second.inbox
  idle_first : first.services.running = ∅
  idle_second : second.services.running = ∅

/-- Worlds that are alike in the midst of a microstep. -/
structure Twins (first second : World) : Prop extends Alike first second where
  generated_eq : first.generated = second.generated

namespace Alike

variable {first second : World} (alike : Alike first second)
include alike

/-- Worlds that are alike are twins when a batch of events begins. -/
theorem cleared : Twins { first with generated := #[] } { second with generated := #[] } :=
  ⟨⟨alike.model, alike.status_eq, alike.inbox_eq, alike.idle_first, alike.idle_second⟩, rfl⟩

theorem withInbox (inbox : List Event) :
    Alike { first with inbox } { second with inbox } :=
  ⟨alike.model, alike.status_eq, rfl, alike.idle_first, alike.idle_second⟩

theorem withStatus (status : Status) : Alike { first with status } { second with status } :=
  ⟨alike.model, rfl, alike.inbox_eq, alike.idle_first, alike.idle_second⟩

theorem post (event : Event) : Alike (first.post event) (second.post event) :=
  ⟨alike.model, alike.status_eq, congrArg (· ++ [event]) alike.inbox_eq, alike.idle_first,
    alike.idle_second⟩

/-- Worlds stay alike while observers are told something. -/
theorem observe (observation other : Observation) :
    Alike (first.observe observation) (second.observe other) :=
  ⟨alike.model, alike.status_eq, alike.inbox_eq, alike.idle_first, alike.idle_second⟩

theorem cancelInactive (chart : Chart) (active : NodeSet) :
    Alike (first.cancelInactive chart active) (second.cancelInactive chart active) := by
  have nothing : ∀ world : World, world.services.running = ∅ →
      world.services.running.keys.filter (fun node => !active.contains node) = [] := by
    intro world idle
    rw [idle]
    rfl
  unfold World.cancelInactive
  rw [nothing first alike.idle_first, nothing second alike.idle_second]
  exact ⟨alike.model, alike.status_eq, alike.inbox_eq, alike.idle_first, alike.idle_second⟩

end Alike

namespace Twins

section Evaluating

variable {first second : World} (twins : Twins first second)
include twins

theorem observe (observation : Observation) :
    Twins (first.observe observation) (second.observe observation) :=
  ⟨twins.toAlike.observe observation observation, twins.generated_eq⟩

theorem report (code : ReportCode) (detail source : String) :
    Twins (first.report code detail source) (second.report code detail source) :=
  twins.observe _

theorem emit (event : Event) : Twins (first.emit event) (second.emit event) :=
  ⟨⟨twins.model, twins.status_eq, twins.inbox_eq, twins.idle_first, twins.idle_second⟩,
    congrArg (·.push event) twins.generated_eq⟩

theorem modifyStatus (change : Status → Status) :
    Twins (first.modifyStatus change) (second.modifyStatus change) :=
  ⟨⟨twins.model, congrArg change twins.status_eq, twins.inbox_eq, twins.idle_first,
    twins.idle_second⟩, twins.generated_eq⟩

theorem withModels {model other : DataModel} (agree : model.Agree other) :
    Twins { first with model } { second with model := other } :=
  ⟨⟨agree, twins.status_eq, twins.inbox_eq, twins.idle_first, twins.idle_second⟩,
    twins.generated_eq⟩

/-! ## Evaluating -/

theorem evalCondition (scope : Scope) (text : String) :
    SameOutcome Twins (first.evalCondition scope text) (second.evalCondition scope text) := by
  obtain ⟨result, next, following, here, there, agree⟩ :=
    (twins.model.evalCondition scope.surroundings text).exists
  rw [World.evalCondition, World.evalCondition, here, there]
  exact ⟨rfl, twins.withModels agree⟩

theorem evalExpression (scope : Scope) (text : String) :
    SameOutcome Twins (first.evalExpression scope text) (second.evalExpression scope text) := by
  obtain ⟨result, next, following, here, there, agree⟩ :=
    (twins.model.evalExpression scope.surroundings text).exists
  rw [World.evalExpression, World.evalExpression, here, there]
  exact ⟨rfl, twins.withModels agree⟩

theorem execute (scope : Scope) (action : Action) :
    SameOutcome Twins (first.execute scope action) (second.execute scope action) := by
  obtain ⟨result, next, following, here, there, agree⟩ :=
    (twins.model.execute scope.surroundings action).exists
  rw [World.execute, World.execute, here, there]
  exact ⟨rfl, twins.withModels agree⟩

theorem blockFailed (scope : Scope) (fault : ExpressionFault) :
    Twins (first.blockFailed scope fault) (second.blockFailed scope fault) :=
  (twins.report _ _ _).emit _

/-! ## Actions -/

/-- Actions that the data model executes. -/
theorem executeAction (scope : Scope) (action : Action)
    (succeeds : ∀ before after : World, before.execute scope action = (.ok (), after) →
      World.runAction scope before action = (after, true))
    (fails : ∀ (before after : World) fault, before.execute scope action = (.error fault, after) →
      World.runAction scope before action = (after.blockFailed scope fault, false)) :
    SameOutcome Twins (World.runAction scope first action).swap
      (World.runAction scope second action).swap := by
  obtain ⟨result, next, following, here, there, twins⟩ := (twins.execute scope action).exists
  cases result with
  | error fault =>
      rw [fails first next fault here, fails second following fault there]
      exact ⟨rfl, twins.blockFailed scope fault⟩
  | ok done =>
      rw [succeeds first next here, succeeds second following there]
      exact ⟨rfl, twins⟩

end Evaluating

mutual

theorem runAction {first second : World} (twins : Twins first second) (scope : Scope)
    (action : Action) :
    SameOutcome Twins (World.runAction scope first action).swap
      (World.runAction scope second action).swap := by
  match action with
  | .raise event =>
      rw [World.runAction, World.runAction]
      exact ⟨rfl, twins.emit _⟩
  | .choose condition thenBlock elseBlock =>
      obtain ⟨result, next, following, here, there, twins⟩ :=
        (twins.evalCondition scope condition).exists
      rw [World.runAction, World.runAction, here, there]
      match result with
      | .error fault =>
          dsimp only
          exact ⟨rfl, twins.blockFailed scope fault⟩
      | .ok true =>
          dsimp only
          exact runBlock twins scope thenBlock
      | .ok false =>
          dsimp only
          exact runBlock twins scope elseBlock
  | .log label expression =>
      obtain ⟨result, next, following, here, there, twins⟩ :=
        (twins.evalExpression scope expression).exists
      rw [World.runAction, World.runAction, here, there]
      cases result with
      | error fault => exact ⟨rfl, twins.blockFailed scope fault⟩
      | ok value => exact ⟨rfl, twins.observe _⟩
  | .assign location expression =>
      apply twins.executeAction scope
      · intro before after done
        rw [runAction_assign, done]
      · intro before after fault failed
        rw [runAction_assign, failed]
  | .script body =>
      apply twins.executeAction scope
      · intro before after done
        rw [runAction_script, done]
      · intro before after fault failed
        rw [runAction_script, failed]

theorem runBlock {first second : World} (twins : Twins first second) (scope : Scope)
    (block : List Action) :
    SameOutcome Twins (World.runBlock scope first block).swap
      (World.runBlock scope second block).swap := by
  match block with
  | [] =>
      rw [World.runBlock, World.runBlock]
      exact ⟨rfl, twins⟩
  | action :: rest =>
      have ran := runAction twins scope action
      rw [World.runBlock, World.runBlock]
      cases here : World.runAction scope first action with
      | mk next finished =>
      cases there : World.runAction scope second action with
      | mk following alsoFinished =>
      rw [here, there] at ran
      obtain rfl : finished = alsoFinished := ran.result_eq
      cases finished with
      | true =>
          dsimp only
          exact runBlock ran.related scope rest
      | false => exact ⟨rfl, ran.related⟩

end

section Executing

variable {first second : World} (twins : Twins first second)
include twins

theorem run (scope : Scope) (block : List Action) :
    Twins (first.run scope block) (second.run scope block) :=
  (twins.runBlock scope block).related

/-! ## Services -/

theorem cancelService (chart : Chart) (node : NodeId) :
    Twins (World.cancelService chart first node) (World.cancelService chart second node) := by
  unfold World.cancelService
  dsimp only
  rw [twins.idle_first, twins.idle_second]
  exact ⟨⟨twins.model, twins.status_eq, twins.inbox_eq, rfl, rfl⟩, twins.generated_eq⟩

theorem forwardAll (chart : Chart) (events : List Event) :
    Twins (first.forwardAll chart events) (second.forwardAll chart events) := by
  unfold World.forwardAll
  rw [twins.idle_first, twins.idle_second]
  exact twins

theorem finalizeAll (chart : Chart) (events : List Event) (active : NodeSet) :
    Twins (first.finalizeAll chart events active) (second.finalizeAll chart events active) := by
  unfold World.finalizeAll World.finalizing
  dsimp only
  rw [twins.idle_first, twins.idle_second]
  exact twins

theorem startPending {chart : Chart} (invokesNothing : chart.InvokesNothing)
    (registry other : Registry) (events : List Event) (active : NodeSet) :
    Twins (first.startPending chart registry events active)
      (second.startPending chart other events active) := by
  have waits : ∀ services : Services,
      active.toList.filter (awaitsStart chart services) = [] := by
    intro services
    exact List.filter_eq_nil_iff.2 fun node _ => by simp [awaitsStart, invokesNothing node]
  unfold World.startPending
  rw [waits, waits]
  exact twins

/-! ## Selection -/

theorem isEnabled (chart : Chart) (events : List Event) (active : NodeSet) (id : TransitionId) :
    SameOutcome Twins (World.isEnabled chart events active first id)
      (World.isEnabled chart events active second id) := by
  unfold World.isEnabled
  dsimp only
  by_cases matched : patternMatches (chart.transition id).event events = true
  · rw [matched, if_neg (by simp), if_neg (by simp)]
    cases (chart.transition id).condition with
    | none => exact ⟨rfl, twins⟩
    | some condition =>
        obtain ⟨result, next, following, here, there, twins⟩ := (twins.evalCondition
          ⟨chart, (chart.transition id).source, events, active⟩ condition).exists
        dsimp only
        rw [here, there]
        cases result with
        | error fault => exact ⟨rfl, twins.report _ _ _⟩
        | ok holds => exact ⟨rfl, twins⟩
  · rw [Bool.not_eq_true] at matched
    rw [matched]
    exact ⟨rfl, twins⟩

theorem enabledOf (chart : Chart) (events : List Event) (active : NodeSet)
    (ids : List TransitionId) :
    SameOutcome Twins (World.enabledOf chart events active first ids)
      (World.enabledOf chart events active second ids) := by
  induction ids generalizing first second with
  | nil => exact ⟨rfl, twins⟩
  | cons id rest ih =>
      obtain ⟨isEnabled, next, following, here, there, twins⟩ :=
        (twins.isEnabled chart events active id).exists
      obtain ⟨enabled, last, other, hereRest, thereRest, twins⟩ := (ih twins).exists
      rw [World.enabledOf, World.enabledOf, here, there]
      dsimp only
      rw [hereRest, thereRest]
      exact ⟨rfl, twins⟩

theorem select (chart : Chart) (events : List Event) :
    SameOutcome Twins (first.select chart events) (second.select chart events) := by
  have enables := twins.enabledOf chart events (chart.active second.status.leaves)
    (chart.candidates second.status.leaves)
  obtain ⟨enabled, next, following, here, there, after⟩ := enables.exists
  unfold World.select
  dsimp only
  rw [twins.status_eq, here, there]
  exact ⟨rfl, after⟩

/-! ## Execution -/

theorem completeParallel (chart : Chart) (parallel : NodeId) :
    Twins (World.completeParallel chart first parallel)
      (World.completeParallel chart second parallel) := by
  unfold World.completeParallel
  dsimp only
  rw [twins.status_eq]
  split
  · exact (twins.modifyStatus _).emit _
  · exact twins

theorem enterFinal (chart : Chart) (node : NodeId) :
    Twins (World.enterFinal chart first node) (World.enterFinal chart second node) := by
  unfold World.enterFinal
  cases chart.parent node with
  | none => exact twins.modifyStatus _
  | some parent =>
      have signalled := (twins.emit (.ofCompletion (chart.idOf parent ++ ".done"))).modifyStatus
        fun status => { status with done := status.done.insert parent }
      dsimp only
      split
      · exact twins.modifyStatus _
      · split
        · cases chart.parent parent with
          | none => exact signalled
          | some parallel => exact signalled.completeParallel chart parallel
        · exact signalled

theorem exitState (chart : Chart) (events : List Event) (active : NodeSet) (node : NodeId) :
    Twins (World.exitState chart events active first node)
      (World.exitState chart events active second node) := by
  have exited := (((twins.cancelService chart node).run ⟨chart, node, events, active⟩
    (chart.node node).onExit).observe (.exited (chart.node node).id)).emit
      (.ofCompletion ((chart.node node).id ++ ".exit"))
  unfold World.exitState
  dsimp only
  split
  · exact exited.modifyStatus _
  · exact exited

theorem takeTransition (chart : Chart) (events : List Event) (active : NodeSet)
    (id : TransitionId) :
    Twins (World.takeTransition chart events active first id)
      (World.takeTransition chart events active second id) := by
  have ran := twins.run ⟨chart, (chart.transition id).source, events, active⟩
    (chart.transition id).actions
  unfold World.takeTransition
  exact List.foldl_rel ran fun _ _ _ _ twins => twins.observe _

theorem enterState (chart : Chart) (events : List Event) (active : NodeSet)
    (resolution : Resolution) (node : NodeId) :
    Twins (World.enterState chart events active resolution first node)
      (World.enterState chart events active resolution second node) := by
  have reopened := twins.modifyStatus fun status => { status with done := status.done.erase node }
  have entered := ((reopened.run ⟨chart, node, events, active⟩
    (chart.node node).onEntry).observe (.entered (chart.node node).id)).emit
      (.ofCompletion ((chart.node node).id ++ ".entry"))
  have defaulted := fun defaults : List TransitionId => List.foldl_rel (l := defaults) entered
    fun id _ _ _ twins => twins.run ⟨chart, node, events, active⟩ (chart.transition id).actions
  unfold World.enterState
  dsimp only
  split
  · exact (defaulted _).enterFinal chart node
  · exact defaulted _

theorem carryOut (chart : Chart) (events : List Event) (transitions : List TransitionId)
    (resolution : Resolution) :
    Twins (first.carryOut chart events transitions resolution)
      (second.carryOut chart events transitions resolution) := by
  unfold World.carryOut
  dsimp only
  rw [twins.status_eq]
  have left := List.foldl_rel (l := resolution.exited) twins fun node _ _ _ twins =>
    twins.exitState chart events (chart.active second.status.leaves) node
  have taken := List.foldl_rel (l := transitions) left fun id _ _ _ twins =>
    twins.takeTransition chart events (chart.active second.status.leaves) id
  have entered := List.foldl_rel (l := resolution.entered) taken fun node _ _ _ twins =>
    twins.enterState chart events (chart.active resolution.after) resolution node
  exact entered.modifyStatus _

end Executing

end Twins

end World

end Statechart
