import Statechart.Chart.Validation
import Statechart.Proofs.Chart.Building
import Statechart.Proofs.Stages

/-!
# Preparing charts for linking

Between naming and linking, validation adds the transitions that were left out
and numbers all places.  This keeps the tree and the ids, links nothing, and
leaves the root and every composite state with an initial transition.
-/

namespace Statechart

namespace Chart

variable {chart before after : Chart}

/-- A step of validation before the targets are found. -/
structure Prepares (before after : Chart) : Prop where
  sameTree : SameTree before after
  isBuilt : before.IsBuilt → after.IsBuilt
  ids_eq : after.ids = before.ids
  idOf_eq : ∀ id, after.idOf id = before.idOf id
  clientId_eq : ∀ id, (after.node id).clientId = (before.node id).clientId
  keepsInitial : ∀ id, (before.node id).initial.isSome = true →
    (after.node id).initial.isSome = true

namespace Prepares

theorem refl (chart : Chart) : Prepares chart chart :=
  ⟨.refl chart, id, rfl, fun _ => rfl, fun _ => rfl, fun _ => id⟩

theorem trans {first second third : Chart} (left : Prepares first second)
    (right : Prepares second third) : Prepares first third where
  sameTree := left.sameTree.trans right.sameTree
  isBuilt := fun built => right.isBuilt (left.isBuilt built)
  ids_eq := right.ids_eq.trans left.ids_eq
  idOf_eq := fun id => (right.idOf_eq id).trans (left.idOf_eq id)
  clientId_eq := fun id => (right.clientId_eq id).trans (left.clientId_eq id)
  keepsInitial := fun id some => right.keepsInitial id (left.keepsInitial id some)

theorem foldl {Element : Type} {step : Chart → Element → Chart}
    (steps : ∀ chart element, Prepares chart (step chart element)) (elements : List Element)
    (chart : Chart) : Prepares chart (elements.foldl step chart) := by
  induction elements generalizing chart with
  | nil => exact .refl chart
  | cons element rest ih => exact (steps chart element).trans (ih (step chart element))

theorem modifyTransition {change : Transition → Transition}
    (keepsSource : ∀ transition, (change transition).source = transition.source)
    (keepsTargets : ∀ transition, (change transition).targets = transition.targets)
    (id : TransitionId) : Prepares chart (chart.modifyTransition id change) where
  sameTree := .of_nodes rfl
  isBuilt := fun built => built.modifyTransition keepsSource keepsTargets id
  ids_eq := rfl
  idOf_eq := fun _ => rfl
  clientId_eq := fun _ => rfl
  keepsInitial := fun _ some => some

theorem modifyNode {change : Node → Node}
    (keepsPosition : ∀ node, (change node).position = node.position)
    (keepsReferences : ∀ node, (change node).references = node.references)
    (keepsId : ∀ node, (change node).id = node.id)
    (keepsClientId : ∀ node, (change node).clientId = node.clientId)
    (keepsInitial : ∀ node, (change node).initial = node.initial)
    (id : NodeId) : Prepares chart (chart.modifyNode id change) where
  sameTree := .modifyNode keepsPosition id
  isBuilt := fun built => built.modifyNode keepsPosition keepsReferences id
  ids_eq := rfl
  idOf_eq := node_modifyNode_keeps Node.id keepsId id
  clientId_eq := node_modifyNode_keeps Node.clientId keepsClientId id
  keepsInitial := by
    intro other some
    rw [node_modifyNode_keeps Node.initial keepsInitial]
    exact some

/-- A transition is added that its source comes to refer to. -/
theorem attach {refer : TransitionId → Node → Node} (reference : IsReference refer)
    (keepsInitial : ∀ transition node, node.initial.isSome = true →
      (refer transition node).initial.isSome = true)
    {added : Transition} (unlinked : added.targets = []) :
    Prepares chart (chart.attach refer added) where
  sameTree := reference.sameTree
  isBuilt := fun built => reference.isBuilt built unlinked
  ids_eq := rfl
  idOf_eq := node_attach_keeps Node.id reference.id_eq
  clientId_eq := node_attach_keeps Node.clientId reference.clientId_eq
  keepsInitial := by
    intro other some
    by_cases same : added.source = other
    · by_cases inside : other < chart.nodeCount
      · rw [node_attach_self same inside]
        exact keepsInitial _ _ some
      · rw [node_of_le (Nat.le_of_not_lt inside)] at some
        cases some
    · rw [node_attach_of_ne (Ne.symm same)]
      exact some

theorem setInitial (node : NodeId) (next : String) (actions : List Action) :
    Prepares chart (chart.setInitial node next actions) := by
  rw [setInitial_eq]
  refine .attach isReference_referInitial ?_ rfl
  intro transition owner some
  cases kind : owner.kind <;> simp_all [referInitial, Node.initial]

theorem setHistoryDefault (history : NodeId) (next : Option String) (actions : List Action) :
    Prepares chart (chart.setHistoryDefault history next actions) := by
  rw [setHistoryDefault_eq]
  refine .attach isReference_referDefault ?_ rfl
  intro transition owner some
  cases kind : owner.kind <;> simp_all [referDefault, Node.initial]

theorem addMissingInitial (chart : Chart) (node : NodeId) :
    Prepares chart (chart.addMissingInitial node) := by
  unfold Chart.addMissingInitial
  dsimp only
  split
  · split
    · exact .setInitial node _ []
    · exact .refl chart
  · exact .refl chart

theorem numberPlace (chart : Chart) (place : Place × Nat) :
    Prepares chart (chart.numberPlace place) := by
  obtain ⟨place, order⟩ := place
  cases place with
  | node id =>
      refine .modifyNode ?_ ?_ ?_ ?_ ?_ id
      all_goals exact fun _ => rfl
  | transition id =>
      refine .modifyTransition ?_ ?_ id
      all_goals exact fun _ => rfl

theorem addMissingDefault {node : NodeId} (done : chart.addMissingDefault node = .ok after) :
    Prepares chart after := by
  unfold Chart.addMissingDefault at done
  split at done
  · split at done
    · cases done
      exact .refl chart
    · split at done
      · cases done
      · split at done
        · cases done
          exact .modifyTransition (fun _ => by rfl) (fun _ => by rfl) _
        · cases done
          exact .setHistoryDefault node _ []
  · cases done
    exact .refl chart

end Prepares

/-! ## Missing initial transitions -/

/-- A node with an initial transition, if it is the root or a composite state. -/
def HasInitial (chart : Chart) (node : NodeId) : Prop :=
  ((chart.node node).isRoot || (chart.node node).isState) = true →
    (chart.node node).children ≠ [] → (chart.node node).initial.isSome = true

theorem HasInitial.prepares {node : NodeId} (has : before.HasInitial node)
    (prepares : Prepares before after) : after.HasInitial node := by
  intro mayHave parented
  rw [prepares.sameTree.isRoot_eq, prepares.sameTree.isState_eq] at mayHave
  rw [prepares.sameTree.children_eq] at parented
  exact prepares.keepsInitial node (has mayHave parented)

theorem initial_referInitial {node : Node} (mayHave : (node.isRoot || node.isState) = true)
    (transition : TransitionId) : (referInitial transition node).initial = some transition := by
  cases kind : node.kind <;>
    simp_all [referInitial, Node.initial, Node.isRoot, Node.isState]

theorem initial_setInitial {node : NodeId} (inside : node < chart.nodeCount)
    (mayHave : ((chart.node node).isRoot || (chart.node node).isState) = true)
    (next : String) (actions : List Action) :
    ((chart.setInitial node next actions).node node).initial = some chart.transitionCount := by
  have isNode : (chart.attach referInitial (newTransition node none none (some next) actions)).node
      node = referInitial chart.transitionCount (chart.node node) := node_attach_self rfl inside
  rw [setInitial_eq, isNode, initial_referInitial mayHave]

/-- The root and composite states have an initial transition afterwards. -/
theorem hasInitial_addMissingInitial {node : NodeId} (inside : node < chart.nodeCount) :
    (chart.addMissingInitial node).HasInitial node := by
  by_cases given : (chart.node node).initial.isSome = true
  · exact fun _ _ => (Prepares.addMissingInitial chart node).keepsInitial node given
  · intro mayHave parented
    have prepares := Prepares.addMissingInitial chart node
    rw [prepares.sameTree.isRoot_eq, prepares.sameTree.isState_eq] at mayHave
    rw [prepares.sameTree.children_eq] at parented
    obtain ⟨first, rest, isFirst⟩ := List.exists_cons_of_ne_nil parented
    have lacks : (((chart.node node).isRoot || (chart.node node).isComposite) &&
        (chart.node node).initial.isNone) = true := by
      simp_all [Node.isComposite]
    have sets : chart.addMissingInitial node = chart.setInitial node (chart.idOf first) [] := by
      unfold addMissingInitial
      simp only [lacks, isFirst, if_true]
    rw [sets, initial_setInitial inside mayHave (chart.idOf first) []]
    rfl

theorem hasInitial_foldl_addMissingInitial (chart : Chart) :
    Prepares chart (chart.nodeIds.foldl addMissingInitial chart) ∧
      ∀ node, node < chart.nodeCount →
        (chart.nodeIds.foldl addMissingInitial chart).HasInitial node := by
  have initials : ∀ state node next, node ∈ chart.nodeIds → Prepares chart state →
      (pure (state.addMissingInitial node) : Except Rejection Chart) = .ok next →
      Prepares chart next ∧ next.HasInitial node ∧
        ∀ other, state.HasInitial other → next.HasInitial other := by
    intro state node next member prepared stepped
    cases stepped
    have prepares := Prepares.addMissingInitial state node
    refine ⟨prepared.trans prepares, hasInitial_addMissingInitial ?_,
      fun other has => has.prepares prepares⟩
    rw [prepared.sameTree.nodeCount_eq]
    exact List.mem_range.1 member
  obtain ⟨prepared, has, -⟩ := foldlM_achieves initials (.refl chart)
    (List.foldlM_pure (m := Except Rejection))
  exact ⟨prepared, fun node inside => has node (List.mem_range.2 inside)⟩

theorem hasInitial_addMissingTransitions (done : chart.addMissingTransitions = .ok after) :
    Prepares chart after ∧ ∀ node, node < chart.nodeCount → after.HasInitial node := by
  have defaults : ∀ state node next, node ∈ (chart.nodeIds.foldl addMissingInitial chart).nodeIds →
      (Prepares chart state ∧ ∀ node, node < chart.nodeCount → state.HasInitial node) →
      state.addMissingDefault node = .ok next →
      Prepares chart next ∧ ∀ node, node < chart.nodeCount → next.HasInitial node := by
    intro state node next _ ⟨earlier, hasEarlier⟩ stepped
    have prepares := Prepares.addMissingDefault stepped
    exact ⟨earlier.trans prepares, fun other inside => (hasEarlier other inside).prepares prepares⟩
  exact foldlM_keeps defaults (hasInitial_foldl_addMissingInitial _) done

/-- Numbering the places keeps what has been prepared. -/
theorem Prepares.assignOrder (chart : Chart) : Prepares chart chart.assignOrder :=
  .foldl .numberPlace chart.places.zipIdx chart

end Chart

end Statechart
