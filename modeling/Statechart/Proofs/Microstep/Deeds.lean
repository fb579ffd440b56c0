import Statechart.Microstep.Execution

/-!
# The deeds of a microstep

To carry out a microstep is to do one thing after the other: exit states, take transitions,
and for each state to enter it, to follow some transitions there, and to finish it if it is
final.  So it can be counted how often the actions of a transition run.
-/

namespace Statechart

/-- What is done in a microstep at one time. -/
inductive Deed where
  | exit (node : NodeId)
  | take (id : TransitionId)
  | enter (node : NodeId)
  /-- The actions of an initial or default transition run in a state that has been entered. -/
  | follow (node : NodeId) (id : TransitionId)
  | finish (node : NodeId)

/-- The transition whose actions run. -/
def Deed.transition? : Deed → Option TransitionId
  | .take id | .follow _ id => some id
  | .exit _ | .enter _ | .finish _ => none

namespace Resolution

/-- The transitions that are followed when a state has been entered. -/
def followedAt (resolution : Resolution) (chart : Chart) (node : NodeId) : List TransitionId :=
  (if resolution.defaultEntries.contains node then (chart.node node).initial.toList else []) ++
    (resolution.historyDefaults.find? node).getD []

/-- What is done at a state that is entered. -/
def deedsAt (resolution : Resolution) (chart : Chart) (node : NodeId) : List Deed :=
  .enter node :: ((resolution.followedAt chart node).map (.follow node) ++ [.finish node])

/-- What is done when transitions are taken. -/
def deeds (resolution : Resolution) (chart : Chart) (transitions : List TransitionId) :
    List Deed :=
  resolution.exited.map .exit ++ transitions.map .take ++
    resolution.entered.flatMap (resolution.deedsAt chart)

/-- The transitions whose actions run, each as often as they do. -/
def runs (resolution : Resolution) (chart : Chart) (transitions : List TransitionId) :
    List TransitionId :=
  (resolution.deeds chart transitions).filterMap Deed.transition?

theorem runs_eq (resolution : Resolution) (chart : Chart) (transitions : List TransitionId) :
    resolution.runs chart transitions =
      transitions ++ resolution.entered.flatMap (resolution.followedAt chart) := by
  have entries : ∀ node, (resolution.deedsAt chart node).filterMap Deed.transition? =
      resolution.followedAt chart node := by
    intro node
    simp [deedsAt, Deed.transition?, List.filterMap_cons, List.filterMap_map, Function.comp_def]
  simp [runs, deeds, Deed.transition?, List.filterMap_map, List.filterMap_flatMap,
    Function.comp_def, entries]

end Resolution

namespace World

/-- A state is entered: it is no longer done, its entry actions run, and this is told. -/
def arriveAt (chart : Chart) (events : List Event) (active : NodeSet) (world : World)
    (node : NodeId) : World :=
  let state := chart.node node
  let world := world.modifyStatus (fun status => { status with done := status.done.erase node })
  let world := world.run ⟨chart, node, events, active⟩ state.onEntry
  (world.observe (.entered state.id)).emit (.ofCompletion (state.id ++ ".entry"))

/-- Does one thing, if some nodes were active before the microstep and some are afterwards. -/
def doOne (chart : Chart) (events : List Event) (before after : NodeSet) (world : World) :
    Deed → World
  | .exit node => exitState chart events before world node
  | .take id => takeTransition chart events before world id
  | .enter node => arriveAt chart events after world node
  | .follow node id => world.run ⟨chart, node, events, after⟩ (chart.transition id).actions
  | .finish node => if (chart.node node).isFinal then enterFinal chart world node else world

/-- Does one thing after the other, and then stands in the configuration that was resolved. -/
def doAll (world : World) (chart : Chart) (events : List Event) (resolution : Resolution)
    (deeds : List Deed) : World :=
  let before := world.status.leaves
  let world := deeds.foldl
    (doOne chart events (chart.active before) (chart.active resolution.after)) world
  world.modifyStatus (fun status =>
    { status with
      leaves := resolution.after
      history := resolution.exited.foldl (recordHistories chart before) status.history })

theorem enterState_eq (chart : Chart) (events : List Event) (before after : NodeSet)
    (resolution : Resolution) (world : World) (node : NodeId) :
    enterState chart events after resolution world node =
      (resolution.deedsAt chart node).foldl (doOne chart events before after) world := by
  rw [Resolution.deedsAt, List.foldl_cons, List.foldl_append, List.foldl_map]
  rfl

/-- To carry out a resolution is to do its deeds. -/
theorem carryOut_eq_doAll (world : World) (chart : Chart) (events : List Event)
    (transitions : List TransitionId) (resolution : Resolution) :
    world.carryOut chart events transitions resolution =
      world.doAll chart events resolution (resolution.deeds chart transitions) := by
  rw [doAll, Resolution.deeds, List.foldl_append, List.foldl_append, List.foldl_map,
    List.foldl_map, List.foldl_flatMap]
  simp only [← enterState_eq]
  rfl

end World

end Statechart
