import Statechart.Definition
import Statechart.Node
import Statechart.Text.Blank

/-!
# Charts

A chart is a tree of nodes with transitions between them.  Nodes and
transitions are numbered in the order in which they were added; each node
knows its parent and, in document order, its children, its histories and its
outgoing transitions.  Node 0 is the root, which is never active itself.

A chart is built by adding nodes and transitions.  Adding either makes it
unvalidated; attaching actions or an invocation does not.
-/

namespace Statechart

/-- The kinds of nodes. -/
inductive NodeKind where
  /-- The root of the tree. -/
  | root (initial : Option TransitionId)
  /-- A simple or composite state. -/
  | state (initial : Option TransitionId) (isFinal : Bool)
  /-- A container whose children are all active together. -/
  | parallel
  /-- A history with its default transition. -/
  | history (kind : HistoryKind) (default : Option TransitionId)
deriving DecidableEq, Inhabited, Repr

/-- A node of the tree. -/
structure Node where
  kind : NodeKind := .root none
  declaredId : Option String := none
  /-- The declared id, or one given by validation. -/
  id : String := ""
  /-- The id given or confirmed by validation. -/
  clientId : String := ""
  parent : Option NodeId := none
  /-- Child states and parallels. -/
  children : List NodeId := []
  histories : List NodeId := []
  /-- Outgoing transitions. -/
  transitions : List TransitionId := []
  onEntry : List Action := []
  onExit : List Action := []
  invocation : Option Invocation := none
  /-- The place of the node in the document, given by validation. -/
  order : Nat := 0
  /-- The distance from the root. -/
  depth : Nat := 0
deriving Inhabited, Repr

namespace Node

/-- The initial transition of the root or of a state. -/
def initial (node : Node) : Option TransitionId :=
  match node.kind with
  | .root initial | .state initial _ => initial
  | .parallel | .history _ _ => none

def historyDefault (node : Node) : Option TransitionId :=
  match node.kind with
  | .history _ default => default
  | _ => none

def isRoot (node : Node) : Bool :=
  match node.kind with
  | .root _ => true
  | _ => false

def isState (node : Node) : Bool :=
  match node.kind with
  | .state _ _ => true
  | _ => false

def isParallel (node : Node) : Bool :=
  match node.kind with
  | .parallel => true
  | _ => false

def isHistory (node : Node) : Bool :=
  match node.kind with
  | .history _ _ => true
  | _ => false

def isFinal (node : Node) : Bool :=
  match node.kind with
  | .state _ isFinal => isFinal
  | _ => false

def isAtomic (node : Node) : Bool :=
  node.isState && node.children.isEmpty

def isComposite (node : Node) : Bool :=
  node.isState && !node.children.isEmpty

end Node

/-- A transition of a node. -/
structure Transition where
  source : NodeId
  /-- The pattern of events that enable it; without one it needs no event. -/
  event : Option String := none
  condition : Option String := none
  /-- The declared ids of the targets, separated by blanks. -/
  next : Option String := none
  /-- The targets found by validation. -/
  targets : List NodeId := []
  actions : List Action := []
  /-- The place of the transition in the document, given by validation. -/
  order : Nat := 0
deriving Repr

instance : Inhabited Transition :=
  ⟨{ source := rootId }⟩

/-- The nodes that observers are told of: the targets, or the source of a
transition without targets. -/
def Transition.observedTargets (transition : Transition) : List NodeId :=
  if transition.targets.isEmpty then [transition.source] else transition.targets

/-- A tree of nodes with transitions between them. -/
structure Chart where
  name : Option String
  nodes : Array Node
  transitions : Array Transition
  /-- The nodes by their ids, filled in by validation. -/
  ids : List (String × NodeId)
  /-- The checksum of the definition; empty for a chart built by hand. -/
  checksum : String
  isValidated : Bool
deriving Inhabited

def nonblank (text : Option String) : Option String :=
  text.filter (fun content => !Text.isBlankText content)

namespace Chart

def empty (name : Option String) : Chart :=
  { name, nodes := #[{}], transitions := #[], ids := [], checksum := "", isValidated := false }

def node (chart : Chart) (id : NodeId) : Node :=
  chart.nodes.getD id default

def transition (chart : Chart) (id : TransitionId) : Transition :=
  chart.transitions.getD id default

def root (chart : Chart) : Node :=
  chart.node rootId

def nodeCount (chart : Chart) : Nat :=
  chart.nodes.size

def transitionCount (chart : Chart) : Nat :=
  chart.transitions.size

/-- The numbers of all nodes, in the order in which they were added. -/
def nodeIds (chart : Chart) : List NodeId :=
  List.range chart.nodeCount

def idOf (chart : Chart) (node : NodeId) : String :=
  (chart.node node).id

def idsOf (chart : Chart) (nodes : List NodeId) : List String :=
  nodes.map chart.idOf

/-- The node with an id.  Validation fills in what is found. -/
def lookup (chart : Chart) (id : String) : Option NodeId :=
  Entries.find? id chart.ids

def parent (chart : Chart) (node : NodeId) : Option NodeId :=
  (chart.node node).parent

def modifyNode (chart : Chart) (id : NodeId) (change : Node → Node) : Chart :=
  { chart with nodes := chart.nodes.modify id change }

def modifyTransition (chart : Chart) (id : TransitionId) (change : Transition → Transition) :
    Chart :=
  { chart with transitions := chart.transitions.modify id change }

/-! ## Building -/

def addNode (chart : Chart) (parent : NodeId) (kind : NodeKind) (id : Option String) :
    Chart × NodeId :=
  let added := chart.nodes.size
  let node : Node :=
    { kind, declaredId := id, id := id.getD "", parent := some parent,
      depth := (chart.node parent).depth + 1 }
  let adopt (owner : Node) : Node :=
    if node.isHistory then { owner with histories := owner.histories ++ [added] }
    else { owner with children := owner.children ++ [added] }
  ({ chart with nodes := (chart.nodes.push node).modify parent adopt, isValidated := false }, added)

def addState (chart : Chart) (parent : NodeId) (id : Option String) (isFinal : Bool) :
    Chart × NodeId :=
  chart.addNode parent (.state none isFinal) id

def addParallel (chart : Chart) (parent : NodeId) (id : Option String) : Chart × NodeId :=
  chart.addNode parent .parallel id

def addHistory (chart : Chart) (owner : NodeId) (id : Option String) (kind : HistoryKind) :
    Chart × NodeId :=
  chart.addNode owner (.history kind none) id

/-- Adds a transition that no node refers to yet.  Blank texts count as absent. -/
def pushTransition (chart : Chart) (source : NodeId) (event condition next : Option String)
    (actions : List Action) : Chart × TransitionId :=
  let transition : Transition :=
    { source, event := nonblank event, condition := nonblank condition, next := nonblank next,
      actions }
  ({ chart with transitions := chart.transitions.push transition, isValidated := false },
    chart.transitions.size)

def addTransition (chart : Chart) (source : NodeId) (event condition next : Option String)
    (actions : List Action) : Chart × TransitionId :=
  let (chart, added) := chart.pushTransition source event condition next actions
  (chart.modifyNode source (fun node => { node with transitions := node.transitions ++ [added] }),
    added)

/-- Declares the initial targets of the root or of a state.  On other nodes the
new transition stays without an owner. -/
def setInitial (chart : Chart) (node : NodeId) (next : String) (actions : List Action) : Chart :=
  let (chart, added) := chart.pushTransition node none none (some next) actions
  chart.modifyNode node (fun owner =>
    match owner.kind with
    | .root _ => { owner with kind := .root (some added) }
    | .state _ isFinal => { owner with kind := .state (some added) isFinal }
    | .parallel | .history _ _ => owner)

/-- Declares the default targets of a history.  On other nodes the new
transition stays without an owner. -/
def setHistoryDefault (chart : Chart) (history : NodeId) (next : Option String)
    (actions : List Action) : Chart :=
  let (chart, added) := chart.pushTransition history none none next actions
  chart.modifyNode history (fun owner =>
    match owner.kind with
    | .history kind _ => { owner with kind := .history kind (some added) }
    | _ => owner)

/-- Appends actions to be run when a node is entered. -/
def addOnEntry (chart : Chart) (node : NodeId) (actions : List Action) : Chart :=
  chart.modifyNode node (fun owner => { owner with onEntry := owner.onEntry ++ actions })

/-- Appends actions to be run when a node is exited. -/
def addOnExit (chart : Chart) (node : NodeId) (actions : List Action) : Chart :=
  chart.modifyNode node (fun owner => { owner with onExit := owner.onExit ++ actions })

def setInvocation (chart : Chart) (node : NodeId) (invocation : Invocation) : Chart :=
  chart.modifyNode node (fun owner => { owner with invocation := some invocation })

end Chart

end Statechart
