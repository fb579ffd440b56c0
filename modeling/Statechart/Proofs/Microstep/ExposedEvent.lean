import Statechart.Proofs.Machine.Run
import Statechart.Proofs.Microstep.Selection

/-!
# The event that guards and actions see

A microstep takes a batch of events.  A transition is selected if its pattern
matches any of them, but guards and actions see the first one only, so what
they see need not be what triggered the transition.
-/

namespace Statechart

/-- The batch of only the first event. -/
def firstOnly (events : List Event) : List Event :=
  events.head?.toList

/-- The same scope in a microstep for the first event only. -/
def Scope.narrow (scope : Scope) : Scope :=
  { scope with events := firstOnly scope.events }

theorem Scope.surroundings_narrow (scope : Scope) :
    scope.narrow.surroundings = scope.surroundings := by
  obtain ⟨chart, state, events, active⟩ := scope
  cases events <;> rfl

namespace World

variable (world : World) (scope : Scope)

/-! ## Blocks see the first event -/

theorem evalCondition_narrow (text : String) :
    world.evalCondition scope.narrow text = world.evalCondition scope text := by
  rw [evalCondition, evalCondition, scope.surroundings_narrow]

theorem evalExpression_narrow (text : String) :
    world.evalExpression scope.narrow text = world.evalExpression scope text := by
  rw [evalExpression, evalExpression, scope.surroundings_narrow]

theorem execute_narrow (action : Action) :
    world.execute scope.narrow action = world.execute scope action := by
  rw [execute, execute, scope.surroundings_narrow]

theorem blockFailed_narrow (fault : ExpressionFault) :
    world.blockFailed scope.narrow fault = world.blockFailed scope fault :=
  rfl

mutual

theorem runAction_narrow (scope : Scope) (world : World) (action : Action) :
    runAction scope.narrow world action = runAction scope world action := by
  match action with
  | .raise event => rw [runAction, runAction]
  | .choose condition thenBlock elseBlock =>
      rw [runAction, runAction, evalCondition_narrow]
      split
      · rw [blockFailed_narrow]
      · exact runBlock_narrow scope _ thenBlock
      · exact runBlock_narrow scope _ elseBlock
  | .log label expression =>
      rw [runAction, runAction, evalExpression_narrow]
      split
      · rw [blockFailed_narrow]
      · rfl
  | .assign location expression =>
      simp only [runAction_assign, execute_narrow, blockFailed_narrow]
  | .script body =>
      simp only [runAction_script, execute_narrow, blockFailed_narrow]

theorem runBlock_narrow (scope : Scope) (world : World) (block : List Action) :
    runBlock scope.narrow world block = runBlock scope world block := by
  match block with
  | [] => rw [runBlock, runBlock]
  | action :: rest =>
      rw [runBlock, runBlock, runAction_narrow scope world action]
      split
      · exact runBlock_narrow scope _ rest
      · rfl

end

theorem run_narrow (block : List Action) : world.run scope.narrow block = world.run scope block :=
  congrArg Prod.fst (runBlock_narrow scope world block)

/-! ## So do exits, transitions and entries -/

section Carrying

variable (chart : Chart) (events : List Event) (active : NodeSet)

end Carrying

/-! ## Selected transitions -/

end World

end Statechart
