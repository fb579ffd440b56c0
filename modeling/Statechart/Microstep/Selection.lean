import Statechart.World

/-!
# Selecting transitions

A transition is enabled when its event pattern matches one of the events and
its condition holds.  Of the enabled transitions the ones from inner states
override those from outer states, and each state takes its first one.
-/

namespace Statechart

/-- Whether a descriptor matches an event: `*` matches every event that does not
tell of entry, exit or completion, a name followed by `.*` matches every event
whose name begins with that name and a point, and any other descriptor matches
the events of that very name. -/
def descriptorMatches (descriptor : String) (event : Event) : Bool :=
  if descriptor = "*" then
    !event.isCompletion
  else
    match descriptor.toList.reverse with
    | '*' :: '.' :: rest =>
      Text.startsWith (String.ofList (rest.reverse ++ ['.'])) event.name
    | _ => event.name == descriptor

/-- Whether an event pattern, descriptors separated by blanks, matches one of
the events.  A transition without a pattern needs no event. -/
def patternMatches (pattern : Option String) (events : List Event) : Bool :=
  match pattern with
  | none => true
  | some descriptors =>
    (Text.words descriptors).any (fun descriptor => events.any (descriptorMatches descriptor))

namespace Chart

/-- The nodes of a queue and their ancestors, breadth first; the seen ones are
not queued again. -/
def climb (chart : Chart) : Nat → List NodeId → List NodeId → List NodeId
  | 0, _, _ => []
  | _ + 1, [], _ => []
  | limit + 1, node :: queue, seen =>
    match chart.parent node with
    | some parent =>
      if parent != rootId && !seen.contains parent then
        node :: chart.climb limit (queue ++ [parent]) (parent :: seen)
      else
        node :: chart.climb limit queue seen
    | none => node :: chart.climb limit queue seen

/-- The outgoing transitions of the active nodes: those of the leaves in
document order first, then those of their ancestors level by level. -/
def candidates (chart : Chart) (leaves : NodeSet) : List TransitionId :=
  let queue := chart.inDocumentOrder leaves.toList
  (chart.climb (chart.nodeCount + queue.length) queue queue).flatMap
    (fun node => (chart.node node).transitions)

/-- What conflicts say about transitions: which are overridden, and which have
another one beside them. -/
structure Conflicts where
  overridden : List TransitionId := []
  contested : List TransitionId := []

/-- Compares a transition with the ones after it, until one overrides it. -/
def compareWith (chart : Chart) (id : TransitionId) (conflicts : Conflicts) :
    List TransitionId → Conflicts
  | [] => conflicts
  | other :: rest =>
    let source := (chart.transition id).source
    let otherSource := (chart.transition other).source
    if chart.isDescendant otherSource source then
      { conflicts with overridden := id :: conflicts.overridden }
    else if chart.isDescendant source otherSource then
      chart.compareWith id { conflicts with overridden := other :: conflicts.overridden } rest
    else
      chart.compareWith id
        { conflicts with contested := id :: other :: conflicts.contested } rest

def conflictsAmong (chart : Chart) (conflicts : Conflicts) : List TransitionId → Conflicts
  | [] => conflicts
  | id :: rest => chart.conflictsAmong (chart.compareWith id conflicts rest) rest

def dropRepeats : List TransitionId → List TransitionId
  | first :: second :: rest =>
    if first = second then dropRepeats (second :: rest)
    else first :: dropRepeats (second :: rest)
  | short => short

/-- Keeps of the contested transitions the first one of each source. -/
def firstPerSource (chart : Chart) (contested : List TransitionId) :
    List NodeId → List TransitionId → List TransitionId
  | _, [] => []
  | served, id :: rest =>
    let source := (chart.transition id).source
    if !contested.contains id then
      id :: chart.firstPerSource contested served rest
    else if served.contains source then
      chart.firstPerSource contested served rest
    else
      id :: chart.firstPerSource contested (source :: served) rest

/-- Whether a transition comes no later than another one in the document. -/
def transitionPrecedes (chart : Chart) (a b : TransitionId) : Bool :=
  (chart.transition a).order ≤ (chart.transition b).order

/-- The transitions to take of the enabled ones, in document order. -/
def resolveConflicts (chart : Chart) (enabled : List TransitionId) : List TransitionId :=
  let conflicts := chart.conflictsAmong {} enabled
  let remaining := enabled.filter (fun id => !conflicts.overridden.contains id)
  chart.firstPerSource conflicts.contested []
    (dropRepeats (sortOrdered chart.transitionPrecedes remaining))

end Chart

namespace World

/-- Whether a transition is enabled.  A condition that fails is reported and
counts as false. -/
def isEnabled (chart : Chart) (events : List Event) (active : NodeSet) (world : World)
    (id : TransitionId) : Bool × World :=
  let transition := chart.transition id
  if !patternMatches transition.event events then
    (false, world)
  else
    match transition.condition with
    | none => (true, world)
    | some condition =>
      let scope : Scope := ⟨chart, transition.source, events, active⟩
      match world.evalCondition scope condition with
      | (.ok holds, world) => (holds, world)
      | (.error fault, world) =>
        (false, world.report .expressionError fault.message scope.stateId)

def enabledOf (chart : Chart) (events : List Event) (active : NodeSet) (world : World) :
    List TransitionId → List TransitionId × World
  | [] => ([], world)
  | id :: rest =>
    let (isEnabled, world) := isEnabled chart events active world id
    let (enabled, world) := enabledOf chart events active world rest
    (if isEnabled then id :: enabled else enabled, world)

/-- The transitions to take for a batch of events. -/
def select (world : World) (chart : Chart) (events : List Event) : List TransitionId × World :=
  let leaves := world.status.leaves
  let (enabled, world) :=
    enabledOf chart events (chart.active leaves) world (chart.candidates leaves)
  (chart.resolveConflicts enabled, world)

end World

end Statechart
