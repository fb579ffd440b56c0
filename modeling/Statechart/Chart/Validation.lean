import Statechart.Chart.Ancestry
import Statechart.Chart.Defect

/-!
# Validation of charts

Validation makes a chart that was built executable.  It gives every node an
id, adds the initial and default transitions that were left out, numbers nodes
and transitions in document order, finds the targets of all transitions and
checks the rules of the tree.  A chart that breaks a rule is rejected with the
changes made so far.
-/

namespace Statechart

namespace Chart

/-- A chart that validation has given up, and why. -/
structure Rejection where
  chart : Chart
  defect : Defect

/-! ## Walks -/

/-- A node and all that is reached from it by taking steps, before what its
later steps reach; at most `limit` steps deep. -/
def walk (steps : NodeId → List NodeId) : Nat → NodeId → List NodeId
  | 0, node => [node]
  | limit + 1, node => node :: (steps node).flatMap (walk steps limit)

/-- The nodes in document order without histories: each node before its
children. -/
def documentWalk (chart : Chart) : List NodeId :=
  walk (fun node => (chart.node node).children) chart.nodeCount rootId

def membersOf (chart : Chart) (node : NodeId) : List NodeId :=
  (chart.node node).histories ++ (chart.node node).children

/-- The nodes in the order in which their members get ids: each node before its
members, later members first. -/
def namingWalk (chart : Chart) : List NodeId :=
  walk (fun node => (chart.membersOf node).reverse) chart.nodeCount rootId

/-! ## Ids -/

/-- The word for a kind of node in ids that are made up. -/
def kindWord (node : Node) : String :=
  match node.kind with
  | .state _ true => "final"
  | .state _ false => "state"
  | .parallel => "parallel"
  | .history _ _ => "history"
  | .root _ => "scxml"

/-- Pairs each member with the id made up for it: the id of the owner, the word
for the kind of the member, and its number among the members of that kind. -/
def madeUpIds (chart : Chart) (owner : NodeId) : List (NodeId × String) :=
  let words := (chart.membersOf owner).map (fun member => kindWord (chart.node member))
  (chart.membersOf owner).zip
    (words.mapIdx (fun index word =>
      s!"{(chart.node owner).clientId}:{word}{(words.take (index + 1)).count word}"))

/-- Gives a node its declared id, or the one made up for it. -/
def nameNode (chart : Chart) (named : NodeId × String) : Except Rejection Chart :=
  let (node, madeUp) := named
  let id := (chart.node node).declaredId.getD madeUp
  let isTaken := Entries.contains id chart.ids
  let chart := chart.modifyNode node (fun owner => { owner with clientId := id, id := id })
  let chart := { chart with ids := Entries.insert id node chart.ids }
  if isTaken then .error ⟨chart, .duplicateId id⟩ else .ok chart

def nameMembers (chart : Chart) (owner : NodeId) : Except Rejection Chart :=
  (chart.madeUpIds owner).foldlM nameNode chart

/-- Gives all nodes their ids.  The root has the name of the chart. -/
def assignIds (chart : Chart) : Except Rejection Chart :=
  let rootName := chart.name.getD "scxml"
  let chart :=
    { chart.modifyNode rootId (fun root => { root with clientId := rootName, id := rootName }) with
      ids := [] }
  chart.namingWalk.foldlM nameMembers chart

/-! ## Transitions that were left out -/

/-- Adds the initial transition to the first child that the root or a composite
state left out. -/
def addMissingInitial (chart : Chart) (node : NodeId) : Chart :=
  let owner := chart.node node
  if (owner.isRoot || owner.isComposite) && owner.initial.isNone then
    match owner.children with
    | first :: _ => chart.setInitial node (chart.idOf first) []
    | [] => chart
  else
    chart

/-- The declared targets of a transition that may be missing. -/
def declaredNext (chart : Chart) (transition : Option TransitionId) : Option String :=
  transition.bind (fun id => (chart.transition id).next)

/-- Adds the default targets that a history left out: the initial targets of its
owner. -/
def addMissingDefault (chart : Chart) (node : NodeId) : Except Rejection Chart :=
  match (chart.node node).kind, chart.parent node with
  | .history _ default, some owner =>
    if (chart.declaredNext default).isSome then
      .ok chart
    else
      match chart.declaredNext (chart.node owner).initial with
      | none => .error ⟨chart, .historyWithoutDefault (chart.idOf node) (chart.idOf owner)⟩
      | some fallback =>
        match default with
        | some id =>
          .ok (chart.modifyTransition id
            (fun transition => { transition with next := some fallback }))
        | none => .ok (chart.setHistoryDefault node (some fallback) [])
  | _, _ => .ok chart

/-- Adds all initial and default transitions that were left out. -/
def addMissingTransitions (chart : Chart) : Except Rejection Chart :=
  let chart := chart.nodeIds.foldl addMissingInitial chart
  chart.nodeIds.foldlM addMissingDefault chart

/-! ## Document order -/

/-- What has a place in the document. -/
inductive Place where
  | node (id : NodeId)
  | transition (id : TransitionId)
deriving DecidableEq, Repr

/-- The places of a node: itself, its histories each with its default
transition, its initial transition and its outgoing transitions. -/
def placesOf (chart : Chart) (node : NodeId) : List Place :=
  let owner := chart.node node
  let histories := owner.histories.flatMap (fun history =>
    .node history :: (chart.node history).historyDefault.toList.map .transition)
  .node node :: histories ++ owner.initial.toList.map .transition ++
    owner.transitions.map .transition

def places (chart : Chart) : List Place :=
  chart.documentWalk.flatMap chart.placesOf

def numberPlace (chart : Chart) (place : Place × Nat) : Chart :=
  match place with
  | (.node id, order) => chart.modifyNode id (fun node => { node with order })
  | (.transition id, order) =>
    chart.modifyTransition id (fun transition => { transition with order })

def assignOrder (chart : Chart) : Chart :=
  chart.places.zipIdx.foldl numberPlace chart

/-! ## Targets -/

/-- Finds the nodes of ids separated by blanks; fails with the first unknown id. -/
def findTargets (chart : Chart) (next : String) : Except String (List NodeId) :=
  (Text.words next).mapM (fun id =>
    match chart.lookup id with
    | some node => .ok node
    | none => .error id)

/-- Links a transition to its targets if they are legal together. -/
def linkTargets (chart : Chart) (source : NodeId) (id : TransitionId) (next : String)
    (targets : List NodeId) : Except Rejection Chart :=
  if chart.areLegalTargets targets then
    .ok (chart.modifyTransition id (fun transition => { transition with targets }))
  else
    .error ⟨chart, .illegalTargets (chart.idOf source) next⟩

/-- Finds the targets of the root's initial transition. -/
def resolveRootInitial (chart : Chart) : Except Rejection Chart :=
  match chart.root.initial with
  | none => .error ⟨chart, .emptyDocument⟩
  | some id =>
    let next := (chart.transition id).next.getD ""
    match chart.findTargets next with
    | .error _ | .ok [] => .error ⟨chart, .noInitialState next⟩
    | .ok targets => chart.linkTargets rootId id next targets

/-- Finds the targets of a state's initial transition, which have to lie below
the state. -/
def resolveInitial (chart : Chart) (state : NodeId) (id : TransitionId) :
    Except Rejection Chart :=
  let next := (chart.transition id).next.getD ""
  match chart.findTargets next with
  | .error _ | .ok [] => .error ⟨chart, .badInitialState (chart.idOf state)⟩
  | .ok targets =>
    if targets.all (fun target => chart.isDescendant target state) then
      chart.linkTargets state id next targets
    else
      .error ⟨chart, .badInitialState (chart.idOf state)⟩

/-- Whether a target suits a history: a child of the owner for a shallow one, a
proper descendant for a deep one. -/
def suitsHistory (chart : Chart) (kind : HistoryKind) (owner target : NodeId) : Bool :=
  match kind with
  | .shallow => chart.parent target == some owner
  | .deep => chart.isDescendant target owner

/-- The defect of a history with a target that does not suit it. -/
def unsuitableDefect (kind : HistoryKind) (history owner : String) : Defect :=
  match kind with
  | .shallow => .badShallowHistory history owner
  | .deep => .badDeepHistory history owner

/-- Finds the targets of a history's default transition. -/
def resolveHistory (chart : Chart) (history : NodeId) (kind : HistoryKind)
    (default : Option TransitionId) : Except Rejection Chart :=
  let owner := (chart.parent history).getD rootId
  let missing : Except Rejection Chart :=
    .error ⟨chart, .historyWithoutDefault (chart.idOf history) (chart.idOf owner)⟩
  match default with
  | none => missing
  | some id =>
    let next := (chart.transition id).next.getD ""
    match chart.findTargets next with
    | .error target => .error ⟨chart, .targetNotFound target⟩
    | .ok [] => missing
    | .ok targets =>
      if targets.all (chart.suitsHistory kind owner) then
        chart.linkTargets history id next targets
      else
        .error ⟨chart, unsuitableDefect kind (chart.idOf history) (chart.idOf owner)⟩

/-- Finds the targets of an outgoing transition; one without declared targets
has none to find. -/
def resolveOutgoing (node : NodeId) (chart : Chart) (id : TransitionId) : Except Rejection Chart :=
  match (chart.transition id).next with
  | none => .ok chart
  | some next =>
    match chart.findTargets next with
    | .error target => .error ⟨chart, .targetNotFound target⟩
    | .ok targets => chart.linkTargets node id next targets

/-! ## Rules of the tree -/

def invocationDefect? (state : String) (invocation : Invocation) : Option Defect :=
  if Text.isBlankText invocation.service then
    some (.missingService state)
  else
    match invocation.source, invocation.sourceExpression with
    | some _, some _ => some (.ambiguousSource state)
    | none, none => some (.missingSource state)
    | _, _ => none

/-- Checks the invocation of a node and finds the targets of its outgoing
transitions. -/
def checkContent (chart : Chart) (node : NodeId) : Except Rejection Chart :=
  match (chart.node node).invocation.bind (invocationDefect? (chart.idOf node)) with
  | some defect => .error ⟨chart, defect⟩
  | none => (chart.node node).transitions.foldlM (resolveOutgoing node) chart

/-- Checks the rules for one node and finds the targets of its transitions. -/
def checkNode (chart : Chart) (node : NodeId) : Except Rejection Chart :=
  let owner := chart.node node
  match owner.kind with
  | .state initial _ =>
    if owner.children.isEmpty && !owner.histories.isEmpty then
      .error ⟨chart, .historyOfAtomicState owner.id⟩
    else
      match initial with
      | some id => do checkContent (← chart.resolveInitial node id) node
      | none => chart.checkContent node
  | .parallel =>
    match owner.children.find? (fun region => (chart.node region).isAtomic) with
    | some region => .error ⟨chart, .atomicRegion owner.id (chart.idOf region)⟩
    | none => chart.checkContent node
  | .history kind default => chart.resolveHistory node kind default
  | .root _ => chart.checkContent node

def validate (chart : Chart) : Except Rejection Chart := do
  if chart.root.children.isEmpty then
    .error ⟨chart, .emptyDocument⟩
  else
    let chart ← chart.assignIds
    let chart ← chart.addMissingTransitions
    let chart ← chart.assignOrder.resolveRootInitial
    let chart ← (chart.nodeIds.drop 1).foldlM checkNode chart
    return { chart with isValidated := true }

end Chart

end Statechart
