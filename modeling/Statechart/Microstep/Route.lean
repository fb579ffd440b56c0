import Statechart.Chart.Ancestry

/-!
# Routes

The route of a transition leads from its source to one of its targets.  It
turns in its scope, the deepest node that is a proper ancestor of both; what
lies below the scope on the source's side is left, what lies below it on the
target's side is entered.
-/

namespace Statechart

/-- The route from a source to a target. -/
structure Route where
  scope : NodeId
  /-- From the source up to just below the scope. -/
  up : List NodeId
  /-- From just below the scope down to the target. -/
  down : List NodeId
deriving DecidableEq, Repr

namespace Chart

/-- A node and its ancestors strictly below a scope, nearest first. -/
def segment (chart : Chart) (node scope : NodeId) : List NodeId :=
  (node :: chart.lineage node).takeWhile (fun step => step != scope && step != rootId)

/-- The scope of a route: the least common ancestor, or its parent if it is one
of the ends. -/
def routeScope (chart : Chart) (source target : NodeId) : NodeId :=
  let meeting := chart.commonAncestor source target
  if meeting = source ∨ meeting = target then (chart.parent meeting).getD rootId else meeting

def route (chart : Chart) (source target : NodeId) : Route :=
  let scope := chart.routeScope source target
  ⟨scope, chart.segment source scope, (chart.segment target scope).reverse⟩

end Chart

namespace Route

def topExited? (route : Route) : Option NodeId :=
  route.up.getLast?

def regionsExited (chart : Chart) (route : Route) : List NodeId :=
  route.up.filter chart.isRegion

def regionsEntered (chart : Chart) (route : Route) : List NodeId :=
  route.down.filter chart.isRegion

def isCrossRegion (chart : Chart) (route : Route) : Bool :=
  !(route.regionsExited chart).isEmpty || !(route.regionsEntered chart).isEmpty

end Route

end Statechart
