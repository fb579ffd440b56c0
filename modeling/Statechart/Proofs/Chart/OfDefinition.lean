import Mathlib.Logic.Relation
import Statechart.Chart.OfDefinition
import Statechart.Proofs.Chart.Building
import Statechart.Proofs.Stages

/-!
# Charts of definitions are trees

A state definition is added by building operations below a node that is no
history, and none of them turns a node into a history.  So the chart of a
definition is built, whatever the definition.
-/

namespace Statechart

namespace Chart

variable {chart before after : Chart}

/-- A node to which members may be added. -/
def IsOwner (chart : Chart) (id : NodeId) : Prop :=
  id < chart.nodeCount ∧ (chart.node id).isHistory = false

theorem IsOwner.of_sameTree {id : NodeId} (isOwner : before.IsOwner id)
    (same : SameTree before after) : after.IsOwner id :=
  ⟨same.nodeCount_eq.symm ▸ isOwner.1, (same.isHistory_eq id).trans isOwner.2⟩

theorem IsOwner.addNode {id : NodeId} (isOwner : chart.IsOwner id) (owner : NodeId)
    (kind : NodeKind) (name : Option String) : (chart.addNode owner kind name).1.IsOwner id := by
  refine ⟨nodeCount_addNode owner kind name ▸ Nat.lt_succ_of_lt isOwner.1, ?_⟩
  rw [isHistory_addNode, if_neg (Nat.ne_of_lt isOwner.1)]
  exact isOwner.2

theorem isOwner_addNode {owner : NodeId} {kind : NodeKind} {id : Option String}
    (notHistory : (chart.newNode owner kind id).isHistory = false) :
    (chart.addNode owner kind id).1.IsOwner chart.nodeCount := by
  refine ⟨nodeCount_addNode owner kind id ▸ Nat.lt_succ_self _, ?_⟩
  rw [isHistory_addNode, if_pos rfl]
  exact notHistory

theorem node_addNode_added {owner : NodeId} {kind : NodeKind} {id : Option String}
    (inside : owner < chart.nodeCount) :
    (chart.addNode owner kind id).1.node chart.nodeCount = chart.newNode owner kind id := by
  rw [node_addNode_of_ne kind id (Nat.ne_of_gt inside), if_pos rfl]

/-! ## Steps of building -/

/-- A step by which the chart of a definition is built.  Initial and default transitions are
added where there are none yet, outgoing ones to nodes that are no histories. -/
inductive BuildStep : Chart → Chart → Prop
  | member {chart : Chart} {owner : NodeId} (isOwner : chart.IsOwner owner) (kind : NodeKind)
      (id : Option String) (notRoot : (chart.newNode owner kind id).isRoot = false)
      (bare : (chart.newNode owner kind id).references = []) :
      BuildStep chart (chart.addNode owner kind id).1
  | outgoing {chart : Chart} {source : NodeId} (isOwner : chart.IsOwner source)
      (event condition next : Option String) (actions : List Action) :
      BuildStep chart
        (chart.attach referOutgoing (newTransition source event condition next actions))
  | initial {chart : Chart} {node : NodeId} (inside : node < chart.nodeCount)
      (mayHave : ((chart.node node).isRoot || (chart.node node).isState) = true)
      (lacks : (chart.node node).initial = none) (next : String) (actions : List Action) :
      BuildStep chart
        (chart.attach referInitial (newTransition node none none (some next) actions))
  | default {chart : Chart} {history : NodeId} (isHistory : (chart.node history).isHistory = true)
      (lacks : (chart.node history).historyDefault = none) (next : Option String)
      (actions : List Action) :
      BuildStep chart (chart.attach referDefault (newTransition history none none next actions))
  | content {chart : Chart} {change : Node → Node}
      (keepsPosition : ∀ node, (change node).position = node.position)
      (keepsReferences : ∀ node, (change node).references = node.references)
      (keepsTransitions : ∀ node, (change node).transitions = node.transitions) (id : NodeId) :
      BuildStep chart (chart.modifyNode id change)

namespace BuildStep

/-- No step turns a node into a history. -/
theorem isOwner (step : BuildStep before after) {id : NodeId} (isOwner : before.IsOwner id) :
    after.IsOwner id := by
  cases step with
  | member _ kind name => exact isOwner.addNode _ kind name
  | outgoing => exact isOwner.of_sameTree isReference_referOutgoing.sameTree
  | initial => exact isOwner.of_sameTree isReference_referInitial.sameTree
  | default => exact isOwner.of_sameTree isReference_referDefault.sameTree
  | content keepsPosition _ _ other => exact isOwner.of_sameTree (.modifyNode keepsPosition other)

theorem isBuilt (step : BuildStep before after) (built : before.IsBuilt) : after.IsBuilt := by
  cases step with
  | member isOwner kind id notRoot bare =>
      exact built.addNode kind id isOwner.1 isOwner.2 notRoot bare
  | outgoing => exact isReference_referOutgoing.isBuilt built rfl
  | initial => exact isReference_referInitial.isBuilt built rfl
  | default => exact isReference_referDefault.isBuilt built rfl
  | content keepsPosition keepsReferences _ id =>
      exact built.modifyNode keepsPosition keepsReferences id

end BuildStep

/-- Any number of steps of building. -/
def BuildSteps : Chart → Chart → Prop :=
  Relation.ReflTransGen BuildStep

namespace BuildSteps

theorem isOwner (steps : BuildSteps before after) {id : NodeId} (isOwner : before.IsOwner id) :
    after.IsOwner id := by
  induction steps with
  | refl => exact isOwner
  | tail _ step ih => exact step.isOwner ih

theorem isBuilt (steps : BuildSteps before after) (built : before.IsBuilt) : after.IsBuilt := by
  induction steps with
  | refl => exact built
  | tail _ step ih => exact step.isBuilt ih

/-- A list of members is added one after the other. -/
theorem foldl {Member : Type} {add : Chart → Member → Chart} {owner : NodeId}
    (adds : ∀ chart member, chart.IsOwner owner → BuildSteps chart (add chart member))
    (members : List Member) (isOwner : chart.IsOwner owner) :
    BuildSteps chart (members.foldl add chart) := by
  induction members generalizing chart with
  | nil => exact .refl
  | cons member rest ih =>
      have first := adds chart member isOwner
      exact first.trans (ih (first.isOwner isOwner))

theorem addHistoryDefinition {owner : NodeId} (isOwner : chart.IsOwner owner)
    (history : HistoryDefinition) :
    BuildSteps chart (addHistoryDefinition owner chart history) := by
  have adds : BuildStep chart (chart.addHistory owner history.id history.kind).1 :=
    .member isOwner (.history history.kind none) history.id rfl rfl
  have added : (chart.addHistory owner history.id history.kind).1.node chart.nodeCount =
      chart.newNode owner (.history history.kind none) history.id := node_addNode_added isOwner.1
  have isHistory : ((chart.addHistory owner history.id history.kind).1.node
      chart.nodeCount).isHistory = true := by rw [added]; rfl
  have lacks : ((chart.addHistory owner history.id history.kind).1.node
      chart.nodeCount).historyDefault = none := by rw [added]; rfl
  exact (Relation.ReflTransGen.single adds).tail
    (.default isHistory lacks history.target history.actions)

theorem addContent {node : NodeId} (isOwner : chart.IsOwner node) (state : StateDefinition) :
    BuildSteps chart (chart.addContent node state) := by
  let acting := (chart.addOnEntry node state.onEntry).addOnExit node state.onExit
  have acts : BuildSteps chart acting := by
    have entry : BuildStep chart (chart.addOnEntry node state.onEntry) :=
      .content (fun _ => by rfl) (fun _ => by rfl) (fun _ => by rfl) node
    exact (Relation.ReflTransGen.single entry).tail
      (.content (fun _ => by rfl) (fun _ => by rfl) (fun _ => by rfl) node)
  let remembering := state.histories.foldl (Chart.addHistoryDefinition node) acting
  have remembers : BuildSteps acting remembering :=
    .foldl (fun _ history isOwner => .addHistoryDefinition isOwner history)
      state.histories (acts.isOwner isOwner)
  let moving := state.transitions.foldl (addTransitionDefinition node) remembering
  have moves : BuildSteps remembering moving :=
    .foldl (fun _ transition isOwner => .single (.outgoing isOwner transition.event
        transition.condition transition.target transition.actions))
      state.transitions (remembers.isOwner (acts.isOwner isOwner))
  have content := (acts.trans remembers).trans moves
  unfold Chart.addContent
  cases state.invocation with
  | none => exact content
  | some invocation =>
      exact content.tail (.content (fun _ => by rfl) (fun _ => by rfl) (fun _ => by rfl) node)

theorem addDefinedNode {parent node : NodeId} {state : StateDefinition}
    (isOwner : chart.IsOwner parent)
    (done : chart.addDefinedNode parent state = .ok (after, node)) :
    BuildSteps chart after ∧ after.IsOwner node := by
  unfold Chart.addDefinedNode at done
  split at done
  · split at done
    · cases done
    · cases done
      exact ⟨.single (.member isOwner .parallel state.id rfl rfl), isOwner_addNode rfl⟩
  · have adds : BuildStep chart (chart.addState parent state.id state.isFinal).1 :=
      .member isOwner (.state none state.isFinal) state.id rfl rfl
    have ownerAdded : (chart.addState parent state.id state.isFinal).1.IsOwner chart.nodeCount :=
      isOwner_addNode rfl
    cases initial : state.initial with
    | none =>
        rw [initial] at done
        cases done
        exact ⟨.single adds, ownerAdded⟩
    | some targets =>
        rw [initial] at done
        cases done
        have added : (chart.addState parent state.id state.isFinal).1.node chart.nodeCount =
            chart.newNode parent (.state none state.isFinal) state.id :=
          node_addNode_added isOwner.1
        have sets : BuildStep (chart.addState parent state.id state.isFinal).1
            ((chart.addState parent state.id state.isFinal).1.setInitial chart.nodeCount targets
              state.initialActions) :=
          .initial ownerAdded.1 (by rw [added]; rfl) (by rw [added]; rfl) targets
            state.initialActions
        exact ⟨(Relation.ReflTransGen.single adds).tail sets, sets.isOwner ownerAdded⟩

mutual

theorem addStateDefinition {first last : Chart} {parent : NodeId} (state : StateDefinition)
    (isOwner : first.IsOwner parent) (done : first.addStateDefinition parent state = .ok last) :
    BuildSteps first last := by
  obtain ⟨id, isParallel, isFinal, initial, initialActions, onEntry, onExit, transitions, states,
    histories, invocation⟩ := state
  rw [Chart.addStateDefinition] at done
  obtain ⟨⟨chart, node⟩, added, continued⟩ := exists_of_bind_eq_ok done
  obtain ⟨adds, nodeOwner⟩ := addDefinedNode isOwner added
  have content := addContent nodeOwner
  exact (adds.trans (content _)).trans
    (addStateDefinitions states ((content _).isOwner nodeOwner) continued)

theorem addStateDefinitions {first last : Chart} {parent : NodeId} (states : List StateDefinition)
    (isOwner : first.IsOwner parent) (done : first.addStateDefinitions parent states = .ok last) :
    BuildSteps first last := by
  match states with
  | [] =>
      rw [Chart.addStateDefinitions] at done
      cases done
      exact .refl
  | state :: rest =>
      rw [Chart.addStateDefinitions] at done
      obtain ⟨chart, added, continued⟩ := exists_of_bind_eq_ok done
      have adds := addStateDefinition state isOwner added
      exact adds.trans (addStateDefinitions rest (adds.isOwner isOwner) continued)

end

end BuildSteps

theorem node_empty (name : Option String) (id : NodeId) : (empty name).node id = {} := by
  by_cases inside : id < 1
  · rw [Nat.lt_one_iff.1 inside]
    rfl
  · exact node_of_le (Nat.le_of_not_lt inside)

theorem isPlanted_empty (name : Option String) : (empty name).IsPlanted where
  nonempty := Nat.one_pos
  isRoot_root := rfl
  parent_root := rfl
  exists_parent := fun id notRoot inside => absurd (Nat.lt_one_iff.1 inside) notRoot
  not_isRoot := fun id notRoot inside => absurd (Nat.lt_one_iff.1 inside) notRoot
  mem_children := fun parent id => by simp [Chart.parent, node_empty]
  mem_histories := fun parent id => by simp [Chart.parent, node_empty]
  increasing_children := fun id => by simp [node_empty]
  increasing_histories := fun id => by simp [node_empty]
  depth_eq := fun id parent isParent => by simp [Chart.parent, node_empty] at isParent

theorem isOwned_empty (name : Option String) : (empty name).IsOwned := by
  constructor
  · intro id transition member
    rw [node_empty] at member
    exact absurd member List.not_mem_nil
  · intro id
    rw [node_empty]
    exact .nil

theorem isBuilt_empty (name : Option String) : (empty name).IsBuilt where
  tree := ⟨isPlanted_empty name, fun id parent _ => by rw [node_empty]; rfl⟩
  owned := isOwned_empty name
  unlinked := fun _ => rfl

/-- The chart of a definition is built step by step from an empty one. -/
theorem exists_buildSteps_of_ofDefinition {definition : Definition}
    (done : ofDefinition definition = .ok chart) :
    ∃ built : Chart, BuildSteps (empty definition.name) built ∧
      chart = { built with checksum := definition.checksum } := by
  obtain ⟨built, added, finished⟩ := exists_of_bind_eq_ok done
  cases finished
  refine ⟨built, ?_, rfl⟩
  have isOwner : (empty definition.name).IsOwner rootId := ⟨Nat.one_pos, rfl⟩
  cases initial : definition.initial with
  | none =>
      rw [initial] at added
      exact .addStateDefinitions definition.states isOwner added
  | some targets =>
      rw [initial] at added
      have inside : rootId < (empty definition.name).nodeCount := Nat.one_pos
      have sets : BuildStep (empty definition.name)
          ((empty definition.name).setInitial rootId targets []) :=
        .initial inside rfl rfl targets []
      exact .head sets (BuildSteps.addStateDefinitions definition.states (sets.isOwner isOwner) added)

theorem BuildStep.isValidated_eq_false (step : BuildStep before after)
    (unvalidated : before.isValidated = false) : after.isValidated = false := by
  cases step with
  | member | outgoing | initial | default => rfl
  | content => exact unvalidated

theorem BuildSteps.isValidated_eq_false (steps : BuildSteps before after)
    (unvalidated : before.isValidated = false) : after.isValidated = false := by
  induction steps with
  | refl => exact unvalidated
  | tail _ step ih => exact step.isValidated_eq_false ih

/-- The chart of a definition does not count as validated yet. -/
theorem isValidated_ofDefinition {definition : Definition}
    (done : ofDefinition definition = .ok chart) : chart.isValidated = false := by
  obtain ⟨built, steps, rfl⟩ := exists_buildSteps_of_ofDefinition done
  exact steps.isValidated_eq_false rfl

/-- The chart of a definition is built. -/
theorem isBuilt_ofDefinition {definition : Definition}
    (done : ofDefinition definition = .ok chart) : chart.IsBuilt := by
  obtain ⟨built, steps, rfl⟩ := exists_buildSteps_of_ofDefinition done
  exact (steps.isBuilt (isBuilt_empty definition.name)).congr rfl rfl

end Chart

end Statechart
