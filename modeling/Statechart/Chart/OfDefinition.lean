import Statechart.Chart.Basic
import Statechart.Chart.Defect

/-!
# Charts of definitions

The chart of a definition has its nodes in the order of the text: each state
comes with its histories, its transitions and then its states.  It is not
validated yet.
-/

namespace Statechart

namespace Chart

def addHistoryDefinition (owner : NodeId) (chart : Chart) (history : HistoryDefinition) : Chart :=
  let (chart, added) := chart.addHistory owner history.id history.kind
  chart.setHistoryDefault added history.target history.actions

def addTransitionDefinition (source : NodeId) (chart : Chart)
    (transition : TransitionDefinition) : Chart :=
  (chart.addTransition source transition.event transition.condition transition.target
    transition.actions).1

/-- Adds the node of a state definition.  A parallel must not declare initial
targets; a state's initial actions count only with initial targets. -/
def addDefinedNode (chart : Chart) (parent : NodeId) (state : StateDefinition) :
    Except Defect (Chart × NodeId) :=
  if state.isParallel then
    if state.initial.isSome then
      .error (.initialOfParallel (state.id.getD ""))
    else
      .ok (chart.addParallel parent state.id)
  else
    let (chart, added) := chart.addState parent state.id state.isFinal
    match state.initial with
    | some initial => .ok (chart.setInitial added initial state.initialActions, added)
    | none => .ok (chart, added)

/-- Adds what belongs to a node besides its states. -/
def addContent (chart : Chart) (node : NodeId) (state : StateDefinition) : Chart :=
  let chart := (chart.addOnEntry node state.onEntry).addOnExit node state.onExit
  let chart := state.histories.foldl (addHistoryDefinition node) chart
  let chart := state.transitions.foldl (addTransitionDefinition node) chart
  match state.invocation with
  | some invocation => chart.setInvocation node invocation
  | none => chart

mutual

def addStateDefinition (chart : Chart) (parent : NodeId) :
    StateDefinition → Except Defect Chart
  | { id, isParallel, isFinal, initial, initialActions, onEntry, onExit, transitions, states,
      histories, invocation } => do
    let state : StateDefinition :=
      { id, isParallel, isFinal, initial, initialActions, onEntry, onExit, transitions,
        histories, invocation }
    let (chart, node) ← chart.addDefinedNode parent state
    addStateDefinitions (chart.addContent node state) node states

/-- Adds a list of state definitions below a parent. -/
def addStateDefinitions (chart : Chart) (parent : NodeId) :
    List StateDefinition → Except Defect Chart
  | [] => .ok chart
  | state :: rest => do
    let chart ← addStateDefinition chart parent state
    addStateDefinitions chart parent rest

end

/-- The chart of a definition, not validated yet. -/
def ofDefinition (definition : Definition) : Except Defect Chart := do
  let start := Chart.empty definition.name
  let start :=
    match definition.initial with
    | some initial => start.setInitial rootId initial []
    | none => start
  let chart ← start.addStateDefinitions rootId definition.states
  return { chart with checksum := definition.checksum }

end Chart

end Statechart
