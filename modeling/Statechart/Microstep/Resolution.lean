import Statechart.Configuration
import Statechart.Microstep.Route

/-!
# The next configuration

Taking transitions leaves the states below the scopes of their routes and
enters their targets.  Targets are expanded down to atomic states: a composite
state through its initial transition, a parallel into all its children, a
history into what it has recorded or else its default targets.  Regions of
active parallels that nothing reached are entered afterwards.
-/

namespace Statechart

/-- What an expansion has reached. -/
structure Expansion where
  leaves : NodeSet
  /-- The composite states entered through their initial transition. -/
  defaultEntries : NodeSet := ∅
  /-- The default transitions of histories that were taken, by the owners of the
  histories. -/
  historyDefaults : NodeMap (List TransitionId) := ∅

/-- What a microstep does to the configuration. -/
structure Resolution where
  /-- The states that are exited, inner ones first. -/
  exited : List NodeId
  /-- The states that are entered, outer ones first. -/
  entered : List NodeId
  /-- The leaves afterwards. -/
  after : NodeSet
  defaultEntries : NodeSet
  historyDefaults : NodeMap (List TransitionId)

/-- Why a microstep cannot be resolved. -/
inductive ResolutionFault where
  /-- The next configuration would break rules. -/
  | illegal (violations : List (NodeId × Chart.Violation))
  /-- The expansion of the targets does not come to an end. -/
  | endless

namespace Chart

/-! ## Leaving -/

/-- Adds what one route leaves: the active nodes from its outermost exited node
down, and the contents of every parallel of which it leaves a region. -/
def addExited (chart : Chart) (active : NodeSet) (exited : NodeSet) (route : Route) : NodeSet :=
  let belowTop :=
    match route.topExited? with
    | some top => active.toList.filter (fun node => chart.isWithin node top)
    | none => []
  let belowParallels := (route.regionsExited chart).flatMap (fun region =>
    match chart.parent region with
    | some parallel => active.toList.filter (fun node => chart.isDescendant node parallel)
    | none => [])
  (exited.insertAll belowTop).insertAll belowParallels

def exitedBy (chart : Chart) (active : NodeSet) (routes : List Route) : NodeSet :=
  routes.foldl (chart.addExited active) ∅

/-! ## Targets -/

def appendNew (nodes : List NodeId) (node : NodeId) : List NodeId :=
  if nodes.contains node then nodes else nodes ++ [node]

def targetsOf (chart : Chart) (transitions : List TransitionId) : List NodeId :=
  (transitions.flatMap (fun id => (chart.transition id).targets)).foldl appendNew []

/-- The siblings of the regions that a route enters, if nothing covers them. -/
def uncoveredSiblings (chart : Chart) (covered : NodeSet) (route : Route) : List NodeId :=
  (route.regionsEntered chart).flatMap (fun region =>
    match chart.parent region with
    | some parallel =>
      (chart.node parallel).children.filter (fun sibling => !covered.contains sibling)
    | none => [])

/-- What is to be expanded: the targets, and the uncovered siblings of entered
regions.  A node with a target or a remaining leaf below it is left out, since
that one decides what becomes of it. -/
def seeds (chart : Chart) (transitions : List TransitionId) (residual : NodeSet)
    (routes : List Route) : List NodeId :=
  let targets := chart.targetsOf transitions
  let covered := chart.closure (residual.toList ++ targets)
  let crossing := routes.filter (Route.isCrossRegion chart)
  let seeds := (crossing.flatMap (chart.uncoveredSiblings covered)).foldl appendNew targets
  let pinned := seeds ++ residual.toList
  seeds.filter (fun seed => !pinned.any (fun pin => chart.isDescendant pin seed))

/-! ## Expansion -/

/-- Expands a node down to atomic states.  None if a chain of more than `limit`
nodes leads on, which happens only if it runs in a circle. -/
def expandNode (chart : Chart) (history : NodeMap (List NodeId)) :
    Nat → Expansion → NodeId → Option Expansion
  | 0, _, _ => none
  | limit + 1, reached, id =>
    let node := chart.node id
    match node.kind with
    | .root _ => some reached
    | .state initial _ =>
      if node.children.isEmpty then
        some { reached with leaves := reached.leaves.insert id }
      else
        match initial with
        | some initial =>
          (chart.transition initial).targets.foldlM (expandNode chart history limit)
            { reached with defaultEntries := reached.defaultEntries.insert id }
        | none => (node.children.take 1).foldlM (expandNode chart history limit) reached
    | .parallel => node.children.foldlM (expandNode chart history limit) reached
    | .history _ default =>
      match history.find? id with
      | some recorded => recorded.foldlM (expandNode chart history limit) reached
      | none =>
        match default with
        | some default =>
          let owner := node.parent.getD rootId
          let taken := (reached.historyDefaults.find? owner).getD []
          (chart.transition default).targets.foldlM (expandNode chart history limit)
            { reached with
              historyDefaults := reached.historyDefaults.insert owner (taken ++ [default]) }
        | none => some reached

def expandNodes (chart : Chart) (history : NodeMap (List NodeId)) (reached : Expansion)
    (nodes : List NodeId) : Option Expansion :=
  nodes.foldlM (chart.expandNode history chart.nodeCount) reached

def missingRegions (chart : Chart) (leaves : NodeSet) : List NodeId :=
  let active := chart.active leaves
  let parallels := active.toList.filter (fun node => (chart.node node).isParallel)
  (parallels.flatMap (fun parallel => (chart.node parallel).children)).filter
    (fun region => !active.contains region)

/-- Enters the missing regions until none is missing.  None if that takes more
than `limit` rounds; every round that is of use adds a leaf. -/
def fillRegions (chart : Chart) (history : NodeMap (List NodeId)) :
    Nat → Expansion → Option Expansion
  | 0, _ => none
  | limit + 1, reached =>
    match chart.missingRegions reached.leaves with
    | [] => some reached
    | missing => do fillRegions chart history limit (← chart.expandNodes history reached missing)

def expand (chart : Chart) (history : NodeMap (List NodeId)) (residual : NodeSet)
    (seeds : List NodeId) : Option Expansion := do
  chart.fillRegions history (chart.nodeCount + 1)
    (← chart.expandNodes history { leaves := residual } seeds)

/-! ## Resolution -/

def routesOf (chart : Chart) (transitions : List TransitionId) : List Route :=
  transitions.flatMap (fun id =>
    let transition := chart.transition id
    transition.targets.map (chart.route transition.source))

/-- Finds out what taking transitions does to a configuration. -/
def resolve (chart : Chart) (history : NodeMap (List NodeId)) (before : NodeSet)
    (transitions : List TransitionId) : Except ResolutionFault Resolution :=
  let activeBefore := chart.active before
  let routes := chart.routesOf transitions
  let exited := chart.exitedBy activeBefore routes
  let residual := before.filter (fun leaf => !exited.contains leaf)
  match chart.expand history residual (chart.seeds transitions residual routes) with
  | none => .error .endless
  | some reached =>
    match chart.violations reached.leaves with
    | [] =>
      let entered := (chart.active reached.leaves).filter
        (fun node => !activeBefore.contains node || exited.contains node)
      .ok {
        exited := chart.inExitOrder exited.toList
        entered := chart.inEntryOrder entered.toList
        after := reached.leaves
        defaultEntries := reached.defaultEntries
        historyDefaults := reached.historyDefaults }
    | violations => .error (.illegal violations)

end Chart

end Statechart
