import Statechart.Chart.Basic

/-!
# Ancestors in a chart

The lineage of a node is the chain of its proper ancestors up to the root,
nearest first.  Descent, least common ancestors and regions are read off it.
Parents come before their children in the numbering, which bounds the chain.
-/

namespace Statechart

namespace Chart

/-- The proper ancestors of a node, nearest first, the root included. -/
def lineage (chart : Chart) (node : NodeId) : List NodeId :=
  match chart.parent node with
  | none => []
  | some parent =>
    if parent < node then parent :: chart.lineage parent else []
termination_by node

/-- Whether a node is a proper descendant of another one. -/
def isDescendant (chart : Chart) (node ancestor : NodeId) : Bool :=
  (chart.lineage node).contains ancestor

/-- The proper ancestors of a node, nearest first, without the root. -/
def ancestors (chart : Chart) (node : NodeId) : List NodeId :=
  (chart.lineage node).takeWhile (· != rootId)

/-- Whether a node is another one or a proper descendant of it. -/
def isWithin (chart : Chart) (node ancestor : NodeId) : Bool :=
  node == ancestor || chart.isDescendant node ancestor

/-- The least common ancestor of two nodes, which may be one of them. -/
def commonAncestor (chart : Chart) (a b : NodeId) : NodeId :=
  ((a :: chart.lineage a).find? (fun candidate => chart.isWithin b candidate)).getD rootId

/-- Whether a node is a child state or parallel of a parallel.  A history of a
parallel is not a region. -/
def isRegion (chart : Chart) (node : NodeId) : Bool :=
  if (chart.node node).isHistory then
    false
  else
    match chart.parent node with
    | some parent => (chart.node parent).isParallel
    | none => false

/-- Whether two different nodes can be active together without one being above
the other: they meet in a parallel. -/
def areOrthogonal (chart : Chart) (a b : NodeId) : Bool :=
  !chart.isWithin a b && !chart.isWithin b a &&
    (chart.node (chart.commonAncestor a b)).isParallel

/-- Whether every two of a list of targets are orthogonal. -/
def areLegalTargets (chart : Chart) : List NodeId → Bool
  | [] => true
  | target :: rest => rest.all (chart.areOrthogonal target) && chart.areLegalTargets rest

end Chart

end Statechart
