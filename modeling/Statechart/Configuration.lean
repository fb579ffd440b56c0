import Statechart.Chart.Ancestry

/-!
# Configurations

A configuration is given by its leaves, the active atomic states; active are
the leaves and their ancestors.  A configuration is legal when one top-level
state is active, every active composite state has one active child, every
active parallel has all its children active, and every leaf is atomic.
-/

namespace Statechart

namespace Chart

/-- Adds a chain of ancestors, nearest first, up to the first one that is there
already: the ancestors of that one are there too. -/
def addChain (active : NodeSet) : List NodeId → NodeSet
  | [] => active
  | ancestor :: rest =>
    if ancestor ∈ active then active else addChain (active.insert ancestor) rest

/-- Adds a node and its ancestors.  The root is never added. -/
def addActive (chart : Chart) (active : NodeSet) (node : NodeId) : NodeSet :=
  if node = rootId ∨ node ∈ active then
    active
  else
    addChain (active.insert node) (chart.ancestors node)

/-- The given nodes and all their ancestors, the root left out. -/
def closure (chart : Chart) (nodes : List NodeId) : NodeSet :=
  nodes.foldl chart.addActive ∅

def active (chart : Chart) (leaves : NodeSet) : NodeSet :=
  chart.closure leaves.toList

/-! ## Orders -/

/-- Puts an element before the first one that it may precede. -/
def insertOrdered {Element : Type} (mayPrecede : Element → Element → Bool) (element : Element) :
    List Element → List Element
  | [] => [element]
  | first :: rest =>
    if mayPrecede element first then element :: first :: rest
    else first :: insertOrdered mayPrecede element rest

/-- Sorts a list; elements that may precede each other keep their order. -/
def sortOrdered {Element : Type} (mayPrecede : Element → Element → Bool) (list : List Element) :
    List Element :=
  list.foldr (insertOrdered mayPrecede) []

/-- Whether a node comes no later than another one in the document. -/
def precedes (chart : Chart) (a b : NodeId) : Bool :=
  (chart.node a).order ≤ (chart.node b).order

/-- Whether a node is less deep than another one, or equally deep and no later
in the document. -/
def precedesOutward (chart : Chart) (a b : NodeId) : Bool :=
  let first := chart.node a
  let second := chart.node b
  first.depth < second.depth || (first.depth == second.depth && first.order ≤ second.order)

def inDocumentOrder (chart : Chart) (nodes : List NodeId) : List NodeId :=
  sortOrdered chart.precedes nodes

/-- The nodes in the order in which they are entered: outer ones first. -/
def inEntryOrder (chart : Chart) (nodes : List NodeId) : List NodeId :=
  sortOrdered chart.precedesOutward nodes

/-- The nodes in the order in which they are exited: inner ones first, later
ones before earlier ones. -/
def inExitOrder (chart : Chart) (nodes : List NodeId) : List NodeId :=
  sortOrdered (fun a b => chart.precedesOutward b a) nodes

/-! ## Legality -/

/-- A rule that a configuration breaks. -/
inductive Violation where
  | notAtomic (leaf : String)
  | missingRegions (parallel : String) (active total : Nat)
  | topLevel (active : Nat)
  | children (composite : String) (active : Nat)
deriving DecidableEq, Repr

def Violation.message : Violation → String
  | .notAtomic leaf => s!"'{leaf}' is not an atomic state"
  | .missingRegions parallel active total =>
    s!"parallel '{parallel}' has {active} of {total} regions active"
  | .topLevel active => s!"{active} top-level states active"
  | .children composite active => s!"composite '{composite}' has {active} active children"

/-- The number of active nodes with a given parent. -/
def activeChildCount (chart : Chart) (active : NodeSet) (parent : NodeId) : Nat :=
  active.toList.countP (fun node => chart.parent node == some parent)

/-- The rule about its children that the root or an active node breaks. -/
def childViolation? (chart : Chart) (active : NodeSet) (id : NodeId) : Option Violation :=
  let node := chart.node id
  let count := chart.activeChildCount active id
  match node.kind with
  | .parallel =>
    if count != node.children.length then
      some (.missingRegions node.id count node.children.length)
    else
      none
  | .root _ => if count != 1 then some (.topLevel count) else none
  | .state _ _ =>
    if !node.children.isEmpty && count != 1 then some (.children node.id count) else none
  | .history _ _ => none

/-- The rules that a configuration breaks, each with the node that breaks it:
first about its leaves, then about the root and the active nodes. -/
def violations (chart : Chart) (leaves : NodeSet) : List (NodeId × Violation) :=
  let active := chart.active leaves
  let ofLeaves := (leaves.toList.filter (fun leaf => !(chart.node leaf).isAtomic)).map
    (fun leaf => (leaf, Violation.notAtomic (chart.idOf leaf)))
  ofLeaves ++ (rootId :: active.toList).filterMap
    (fun node => (chart.childViolation? active node).map (fun violation => (node, violation)))

def isLegal (chart : Chart) (leaves : NodeSet) : Bool :=
  (chart.violations leaves).isEmpty

end Chart

end Statechart
