import Statechart.Chart.Basic
import Statechart.Guard.Basic

/-!
# Scopes of expressions

An expression is evaluated at a state, during a microstep: it sees the first
event of the microstep and which states are active.
-/

namespace Statechart

/-- Where and when an expression is evaluated. -/
structure Scope where
  chart : Chart
  state : NodeId
  /-- The events of the microstep. -/
  events : List Event
  /-- The active nodes. -/
  active : NodeSet

namespace Scope

def stateId (scope : Scope) : String :=
  scope.chart.idOf scope.state

/-- The event being processed: the first one of the microstep. -/
def event? (scope : Scope) : Option Event :=
  scope.events.head?

def isActive (scope : Scope) (id : String) : Bool :=
  match scope.chart.lookup id with
  | some node => scope.active.contains node
  | none => false

def surroundings (scope : Scope) : Surroundings :=
  ⟨scope.event?.map Event.toJson, scope.isActive⟩

end Scope

end Statechart
