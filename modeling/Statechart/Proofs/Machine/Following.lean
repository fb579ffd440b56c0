import Statechart.Proofs.Machine.Reachable
import Statechart.Proofs.Microstep.Following

/-!
# Initial and default transitions in machines

In every microstep of a machine the actions of each initial transition that the expansion
follows run once.  The actions of the default transition of a history run whenever the
expansion comes to the history, provided that its owner is entered.  Where the owner stays,
since the microstep starts within it, they do not run.
-/

namespace Statechart

namespace World

theorem transition_of_microstep {world after : World} {program : Program}
    {initial : Option TransitionId} {events : List Event} {transitions : List TransitionId}
    (done : world.microstep program initial events = .ok (transitions, after))
    {id : TransitionId} (isTaken : id ∈ transitions) :
    initial = some id ∨ ∃ node, id ∈ (program.chart.node node).transitions := by
  obtain ⟨asked, -, rfl, -⟩ := exists_carriesOut_of_microstep done
  cases initial with
  | some first => exact .inl (congrArg some (List.mem_singleton.1 isTaken).symm)
  | none =>
      obtain ⟨node, -, outgoing⟩ := List.mem_flatMap.1 (mem_select isTaken).1
      exact .inr ⟨node, outgoing⟩

end World

namespace Machine

variable {definition : Definition} {machine : Machine}

/-- The transitions of an operation are the initial one of the chart, or outgoing transitions. -/
theorem transition_of_mem_turnsOf {operation : Operation} {turn : Turn}
    (member : turn ∈ machine.turnsOf operation) {id : TransitionId}
    (isTaken : id ∈ turn.transitions) :
    machine.chart.root.initial = some id ∨
      ∃ node, id ∈ (machine.chart.node node).transitions := by
  obtain ⟨attempt, isAttempt, isTurn⟩ := List.mem_filterMap.1 member
  obtain ⟨next, outcome, -⟩ := Attempt.exists_of_turn? isTurn
  refine (World.transition_of_microstep outcome isTaken).imp_left fun isInitial => ?_
  cases isBegun : machine.macrostepBegun operation with
  | none =>
      rw [attemptsOf_of_idle isBegun] at isAttempt
      cases isAttempt
  | some macrostep =>
      obtain ⟨begun, initial⟩ := macrostep
      obtain ⟨-, rfl | isNone⟩ := (course_of_begun isBegun).1.of_mem attempt isAttempt
      · rcases (begins_of_begun isBegun).initial_eq with ⟨isNone, -⟩ | isRoot
        · cases isInitial.symm.trans isNone
        · exact isRoot.symm.trans isInitial
      · cases isInitial.symm.trans isNone

/-- What the expansion follows in a turn is not taken as well. -/
theorem not_mem_transitions_of_followedBy (comesAbout : ComesAbout definition machine)
    {operation : Operation} {turn : Turn} (member : turn ∈ machine.turnsOf operation)
    {id : NodeId} (isProper : machine.chart.IsProper id) {history : NodeMap (List NodeId)}
    {followed : TransitionId} (follows : machine.chart.followedBy history id = some followed) :
    followed ∉ turn.transitions := by
  have owned := Chart.isOwned_of_chartOf comesAbout.chartOf_eq
  intro isTaken
  rcases transition_of_mem_turnsOf member isTaken with isInitial | ⟨node, outgoing⟩
  · have atRoot := (owned.own rootId followed (List.mem_append_left _
      (List.mem_append_left _ (Option.mem_toList.2 isInitial)))).2
    exact isProper.1 ((owned.source_of_followedBy follows).symm.trans atRoot)
  · exact owned.not_mem_transitions_of_followedBy follows outgoing

/-- In every turn of a machine the deeds of its resolution are done.  The actions of each initial
transition that the expansion follows run once, and those of a default transition as often as the
expansion comes to its history if the owner is entered.  Otherwise, where the owner is the root or
stays, they do not run. -/
theorem followed_transitions_run (comesAbout : ComesAbout definition machine)
    (parallels : machine.chart.ParallelsHaveChildren) {operation : Operation} {turn : Turn}
    (member : turn ∈ machine.turnsOf operation) :
    let chart := machine.chart
    let history := turn.before.history
    let before := turn.before.leaves
    let visited := chart.visitedBy history before turn.transitions
    ∃ resolution, chart.resolve history before turn.transitions = .ok resolution ∧
      chart.expand history (chart.residualOf before turn.transitions)
          (chart.seedsOf before turn.transitions) =
        some (visited.foldl (chart.arrive history)
          { leaves := chart.residualOf before turn.transitions }) ∧
      (∀ (world : World) (events : List Event),
        world.carryOut chart events turn.transitions resolution =
          world.doAll chart events resolution (resolution.deeds chart turn.transitions)) ∧
      ∀ id ∈ visited, ∀ followed, chart.followedBy history id = some followed →
        let times := (resolution.runs chart turn.transitions).count followed
        ((chart.node id).isHistory = false → times = 1) ∧
        ((chart.node id).isHistory = true →
          chart.anchor id ∈ resolution.entered ∧ times = visited.count id ∨
          (chart.anchor id = rootId ∨ chart.anchor id ∈ chart.active before ∧
            ¬ chart.anchor id ∈ resolution.exited) ∧ times = 0) := by
  intro chart history before visited
  have executable := Chart.isExecutable_of_chartOf comesAbout.chartOf_eq
  have owned := Chart.isOwned_of_chartOf comesAbout.chartOf_eq
  obtain ⟨taken, regular⟩ := comesAbout.isRegular_before parallels member
  have active := fun occupied => taken.isActive_source executable regular occupied
  obtain ⟨world, after, initial, events, isBefore, -, done, -, -⟩ := taken.exists_step_in_world
  obtain ⟨-, -, -, resolution, resolved, -⟩ := World.exists_carriesOut_of_microstep done
  rw [isBefore] at resolved
  obtain ⟨reached, expanded, -, -⟩ := Chart.resolve_eq_ok_iff.1 resolved
  refine ⟨resolution, resolved, ?_, fun world events => ?_, fun id isVisited followed follows => ?_⟩
  · exact expanded.trans (congrArg some (Chart.eq_foldl_of_expand expanded))
  · exact world.carryOut_eq_doAll chart events turn.transitions resolution
  · have isProper := executable.isProper_of_visited regular resolved isVisited
    have notTaken := not_mem_transitions_of_followedBy comesAbout member isProper follows
    have counted := Chart.count_runs owned resolved isVisited follows notTaken
    refine ⟨fun notHistory => ?_, fun isHistory => ?_⟩
    · have isAnchor := Chart.anchor_of_isState (Chart.isState_of_followedBy follows notHistory)
      have entered := executable.mem_entered_of_visited parallels regular active resolved isVisited
        notHistory
      rw [isAnchor, if_pos entered, notHistory] at counted
      exact counted
    · rw [isHistory, if_pos rfl] at counted
      by_cases entered : chart.anchor id ∈ resolution.entered
      · rw [if_pos entered] at counted
        exact .inl ⟨entered, counted⟩
      · rw [if_neg entered] at counted
        exact .inr ⟨(executable.anchor_of_visited parallels regular resolved isVisited).resolve_left
          entered, counted⟩

/-! ## Lights in a villa -/

/-- A villa in which one is led back to the kitchen, where the light goes on.  Two other histories
lead to the same.  From the garden one goes to some targets, from the hall back. -/
def villa (targets : String) : Definition :=
  { states := [
      { id := some "garden", transitions := [{ event := some "enter", target := some targets }] },
      { id := some "villa", isParallel := true,
        histories := [
          { id := some "back", kind := .deep, target := some "kitchen", actions := [
            .choose "ctx.lit" [.assign "ctx.again" "true"] [.assign "ctx.lit" "true"]] },
          { id := some "first", kind := .deep, target := some "back" },
          { id := some "second", kind := .deep, target := some "back" }],
        transitions := [{ event := some "leave", target := some "garden" }], states := [
        { id := some "above", states := [
          { id := some "hall", transitions := [{ event := some "return", target := some "back" }] },
          { id := some "kitchen" }] },
        { id := some "below", states := [{ id := some "cellar" }, { id := some "stairs" }] }] }] }

def villaAfter (targets : String) (operations : List Operation) : Machine :=
  (preparedOrEmpty (villa targets) {} {} []).performAll operations

theorem comesAbout_villaAfter {targets : String} {operations : List Operation}
    (accepted : (prepare (villa targets) {} {} []).isOk = true)
    (notRestore : ∀ operation ∈ operations, ∀ snapshot, operation ≠ .restore snapshot) :
    ComesAbout (villa targets) (villaAfter targets operations) :=
  .performAll (.prepared (prepare_eq_ok accepted)) notRestore

/-- From the garden the history leads to the kitchen, and the initial transition below leads to
the cellar.  The actions of both run once. -/
theorem light_goes_on :
    ∃ turn, (ComesAbout (villa "back") (villaAfter "back" [.start]) ∧
      (villaAfter "back" [.start]).chart.ParallelsHaveChildren ∧
      turn ∈ (villaAfter "back" [.start]).turnsOf (.fire { name := "enter" })) ∧
    ∃ resolution, (villaAfter "back" [.start]).chart.resolve turn.before.history
        turn.before.leaves turn.transitions = .ok resolution ∧
      (resolution.runs (villaAfter "back" [.start]).chart turn.transitions).count 1 = 1 ∧
      (resolution.runs (villaAfter "back" [.start]).chart turn.transitions).count 8 = 1 := by
  have comesAbout : ComesAbout (villa "back") (villaAfter "back" [.start]) :=
    comesAbout_villaAfter (by decide +kernel) (by simp)
  -- The machine is run once for all that is read off it.
  obtain ⟨withChildren, turn, member, areVisited, isDefault, isInitial, isHistory, notHistory,
      isOwner, notBefore⟩ :
      (villaAfter "back" [.start]).chart.nodes.all
        (fun node => !node.isParallel || !node.children.isEmpty) = true ∧
      ∃ turn ∈ (villaAfter "back" [.start]).turnsOf (.fire { name := "enter" }),
        (villaAfter "back" [.start]).chart.visitedBy turn.before.history turn.before.leaves
          turn.transitions = [3, 8, 9, 10] ∧
        (villaAfter "back" [.start]).chart.followedBy turn.before.history 3 = some 1 ∧
        (villaAfter "back" [.start]).chart.followedBy turn.before.history 9 = some 8 ∧
        ((villaAfter "back" [.start]).chart.node 3).isHistory = true ∧
        ((villaAfter "back" [.start]).chart.node 9).isHistory = false ∧
        (villaAfter "back" [.start]).chart.anchor 3 = 2 ∧
        ¬ 2 ∈ (villaAfter "back" [.start]).chart.active turn.before.leaves := by
    decide +kernel
  have parallels := Chart.parallelsHaveChildren_of_all withChildren
  obtain ⟨resolution, resolved, -, -, counts⟩ :=
    followed_transitions_run comesAbout parallels member
  rw [areVisited] at counts
  refine ⟨turn, ⟨comesAbout, parallels, member⟩, resolution, resolved, ?_, ?_⟩
  · rcases (counts 3 (by simp) 1 isDefault).2 isHistory with ⟨-, once⟩ | ⟨isRoot | stays, -⟩
    · exact once
    · exact absurd (isOwner.symm.trans isRoot) (by decide)
    · exact absurd (isOwner ▸ stays.1) notBefore
  · exact (counts 9 (by simp) 8 isInitial).1 notHistory

/-- In a turn the actions of all transitions that the expansion follows run exactly once. -/
def FollowsOnce (chart : Chart) (turn : Turn) : Prop :=
  ∀ resolution,
    chart.resolve turn.before.history turn.before.leaves turn.transitions = .ok resolution →
    ∀ id ∈ chart.visitedBy turn.before.history turn.before.leaves turn.transitions,
      ∀ followed ∈ chart.followedBy turn.before.history id,
        (resolution.runs chart turn.transitions).count followed = 1

instance (chart : Chart) (turn : Turn) : Decidable (FollowsOnce chart turn) :=
  match resolved : chart.resolve turn.before.history turn.before.leaves turn.transitions with
  | .ok resolution =>
    decidable_of_iff
      (∀ id ∈ chart.visitedBy turn.before.history turn.before.leaves turn.transitions,
        ∀ followed ∈ chart.followedBy turn.before.history id,
          (resolution.runs chart turn.transitions).count followed = 1)
      (by simp only [FollowsOnce, resolved, Except.ok.injEq, forall_eq'])
  | .error _ => .isTrue fun _ others => by cases resolved.symm.trans others

/-- Whether this is so in every turn of the machines of a definition. -/
def FollowedRunOnce (definition : Definition) : Prop :=
  ∀ (machine : Machine) (operation : Operation), ComesAbout definition machine →
    machine.chart.ParallelsHaveChildren → ∀ turn ∈ machine.turnsOf operation,
      FollowsOnce machine.chart turn

theorem not_followedRunOnce (operation : Operation)
    (comesAbout : ComesAbout definition machine)
    (amiss : machine.chart.nodes.all
        (fun node => !node.isParallel || !node.children.isEmpty) = true ∧
      ∃ turn ∈ machine.turnsOf operation, ¬ FollowsOnce machine.chart turn) :
    ¬ FollowedRunOnce definition := by
  obtain ⟨withChildren, turn, member, notOnce⟩ := amiss
  have parallels := Chart.parallelsHaveChildren_of_all withChildren
  exact fun once => notOnce (once machine operation comesAbout parallels turn member)

/-- Not all that is followed runs once.  From the hall one is led back to the kitchen, but stays in
the villa, and no light goes on.  Whoever comes by two histories that lead back lights it twice. -/
theorem light_may_stay_off_or_go_on_twice :
    ¬ FollowedRunOnce (villa "villa") ∧ ¬ FollowedRunOnce (villa "first second") := by
  constructor
  · have comesAbout : ComesAbout (villa "villa")
        (villaAfter "villa" [.start, .fire { name := "enter" }]) :=
      comesAbout_villaAfter (by decide +kernel) (by simp)
    exact not_followedRunOnce (.fire { name := "return" }) comesAbout (by decide +kernel)
  · have comesAbout : ComesAbout (villa "first second") (villaAfter "first second" [.start]) :=
      comesAbout_villaAfter (by decide +kernel) (by simp)
    exact not_followedRunOnce (.fire { name := "enter" }) comesAbout (by decide +kernel)

end Machine

end Statechart
