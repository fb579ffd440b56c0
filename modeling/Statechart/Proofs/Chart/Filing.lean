import Statechart.Proofs.Chart.OfDefinition
import Statechart.Proofs.Chart.Revision

/-!
# Every transition is filed with its source

Building a chart from outside may replace an initial transition by another one, and then no
node refers to the first one any more.  In the chart of a definition this does not happen,
nor does validation forget a transition.
-/

namespace Statechart

namespace Chart

variable {chart before after : Chart}

/-- Every transition is among those that its source refers to, and histories refer to
nothing but their defaults. -/
structure IsFiled (chart : Chart) : Prop where
  filed : ∀ transition, transition < chart.transitionCount →
    transition ∈ (chart.node (chart.transition transition).source).references
  transitions_eq_nil : ∀ id, (chart.node id).isHistory = true → (chart.node id).transitions = []

theorem references_referInitial {node : Node}
    (mayHave : (node.isRoot || node.isState) = true) (lacks : node.initial = none)
    (transition : TransitionId) :
    (referInitial transition node).references = transition :: node.references := by
  cases kind : node.kind <;>
    simp_all [Node.references, referInitial, Node.initial, Node.historyDefault, Node.isRoot,
      Node.isState]

theorem references_referDefault {node : Node} (isHistory : node.isHistory = true)
    (lacks : node.historyDefault = none) (transition : TransitionId) :
    (referDefault transition node).references = transition :: node.references := by
  cases kind : node.kind <;>
    simp_all [Node.references, referDefault, Node.initial, Node.historyDefault, Node.isHistory]

theorem isFiled_empty (name : Option String) : (empty name).IsFiled where
  filed := fun transition inside => absurd inside (Nat.not_lt_zero transition)
  transitions_eq_nil := fun id _ => by rw [node_empty]

namespace IsFiled

theorem congr (filed : before.IsFiled) (sameTree : SameTree before after)
    (references_eq : ∀ id, (after.node id).references = (before.node id).references)
    (transitions_eq : ∀ id, (after.node id).transitions = (before.node id).transitions)
    (count_eq : after.transitionCount = before.transitionCount)
    (source_eq : ∀ id, (after.transition id).source = (before.transition id).source) :
    after.IsFiled where
  filed := by
    intro transition inside
    rw [references_eq, source_eq]
    exact filed.filed transition (count_eq ▸ inside)
  transitions_eq_nil := by
    intro id isHistory
    rw [transitions_eq]
    exact filed.transitions_eq_nil id (sameTree.isHistory_eq id ▸ isHistory)

theorem addNode (filed : chart.IsFiled) {owner : NodeId} (kind : NodeKind) (id : Option String) :
    (chart.addNode owner kind id).1.IsFiled where
  filed := by
    intro transition inside
    have known : transition ∈ (chart.node (chart.transition transition).source).references :=
      filed.filed transition inside
    have present : (chart.transition transition).source < chart.nodeCount := by
      apply Nat.lt_of_not_le
      intro outside
      rw [node_of_le outside] at known
      exact List.not_mem_nil known
    have same : ((chart.addNode owner kind id).1.transition transition).source =
        (chart.transition transition).source := rfl
    rw [same, references_addNode, if_neg (Nat.ne_of_lt present)]
    exact known
  transitions_eq_nil := by
    have transitions : ∀ other, ((chart.addNode owner kind id).1.node other).transitions =
        if other = chart.nodeCount then [] else (chart.node other).transitions :=
      node_addNode_keeps owner kind id Node.transitions fun isHistory _ _ => by
        cases isHistory <;> rfl
    intro other isHistory
    rw [transitions]
    rw [isHistory_addNode] at isHistory
    split at isHistory
    · next isAdded => rw [if_pos isAdded]
    · next isOld => rw [if_neg isOld, filed.transitions_eq_nil other isHistory]

/-- A transition that its source comes to refer to is filed. -/
theorem attach (filed : chart.IsFiled) {refer : TransitionId → Node → Node}
    (reference : IsReference refer) {added : Transition}
    (inside : added.source < chart.nodeCount)
    (refers : (refer chart.transitionCount (chart.node added.source)).references.Perm
      (chart.transitionCount :: (chart.node added.source).references))
    (outgoing : (chart.node added.source).isHistory = true →
      (refer chart.transitionCount (chart.node added.source)).transitions = []) :
    (chart.attach refer added).IsFiled where
  filed := by
    intro transition present
    rw [transitionCount_attach] at present
    rcases Nat.lt_succ_iff_lt_or_eq.1 present with isOld | isAdded
    · have known := filed.filed transition isOld
      rw [transition_attach_of_lt isOld]
      by_cases isSource : (chart.transition transition).source = added.source
      · rw [isSource] at known ⊢
        rw [node_attach_self rfl inside]
        exact refers.mem_iff.2 (List.mem_cons_of_mem _ known)
      · rw [node_attach_of_ne isSource]
        exact known
    · subst isAdded
      rw [transition_attach_self, node_attach_self rfl inside]
      exact refers.mem_iff.2 List.mem_cons_self
  transitions_eq_nil := by
    intro id isHistory
    rw [reference.sameTree.isHistory_eq] at isHistory
    by_cases isSource : id = added.source
    · subst isSource
      rw [node_attach_self rfl inside]
      exact outgoing isHistory
    · rw [node_attach_of_ne isSource]
      exact filed.transitions_eq_nil id isHistory

theorem setInitial (filed : chart.IsFiled) {node : NodeId} (inside : node < chart.nodeCount)
    (mayHave : ((chart.node node).isRoot || (chart.node node).isState) = true)
    (lacks : (chart.node node).initial = none) (next : String) (actions : List Action) :
    (chart.setInitial node next actions).IsFiled := by
  rw [setInitial_eq]
  refine filed.attach isReference_referInitial inside ?_ fun isHistory => ?_
  · exact .of_eq (references_referInitial mayHave lacks _)
  · rw [transitions_referInitial]
    exact filed.transitions_eq_nil node isHistory

theorem setHistoryDefault (filed : chart.IsFiled) {history : NodeId}
    (isHistory : (chart.node history).isHistory = true)
    (lacks : (chart.node history).historyDefault = none) (next : Option String)
    (actions : List Action) : (chart.setHistoryDefault history next actions).IsFiled := by
  have inside : history < chart.nodeCount := by
    apply Nat.lt_of_not_le
    intro outside
    rw [node_of_le outside] at isHistory
    cases isHistory
  rw [setHistoryDefault_eq]
  refine filed.attach isReference_referDefault inside ?_ fun isHistory => ?_
  · exact .of_eq (references_referDefault isHistory lacks _)
  · rw [transitions_referDefault]
    exact filed.transitions_eq_nil history isHistory

theorem buildStep (filed : before.IsFiled) (step : BuildStep before after) : after.IsFiled := by
  cases step with
  | member isOwner kind id => exact filed.addNode kind id
  | outgoing isOwner event condition next actions =>
      refine filed.attach isReference_referOutgoing isOwner.1 (references_referOutgoing _ _) ?_
      exact fun isHistory => absurd (isOwner.2.symm.trans isHistory) Bool.false_ne_true
  | initial inside mayHave lacks next actions =>
      exact filed.setInitial inside mayHave lacks next actions
  | default isHistory lacks next actions =>
      exact filed.setHistoryDefault isHistory lacks next actions
  | content keepsPosition keepsReferences keepsTransitions id =>
      exact filed.congr (.modifyNode keepsPosition id)
        (node_modifyNode_keeps Node.references keepsReferences id)
        (node_modifyNode_keeps Node.transitions keepsTransitions id) rfl fun _ => rfl

end IsFiled

theorem isFiled_ofDefinition {definition : Definition} (done : ofDefinition definition = .ok chart) :
    chart.IsFiled := by
  obtain ⟨built, steps, rfl⟩ := exists_buildSteps_of_ofDefinition done
  suffices filed : built.IsFiled from ⟨filed.filed, filed.transitions_eq_nil⟩
  clear done
  induction steps with
  | refl => exact isFiled_empty definition.name
  | tail _ step ih => exact ih.buildStep step

/-! ## Validation -/

namespace IsFiled

theorem reproduces (filed : before.IsFiled) (reproduces : Reproduces before after) :
    after.IsFiled :=
  filed.congr reproduces.sameTree (reproduces.part_eq Node.references fun _ => rfl)
    (reproduces.part_eq Node.transitions fun _ => rfl) reproduces.transitionCount_eq
    reproduces.source_eq

theorem addMissingInitial (filed : chart.IsFiled) {node : NodeId}
    (inside : node < chart.nodeCount) : (chart.addMissingInitial node).IsFiled := by
  unfold Chart.addMissingInitial
  dsimp only
  split
  · next lacks =>
      obtain ⟨mayLack, isNone⟩ := Bool.and_eq_true_iff.1 lacks
      split
      · exact filed.setInitial inside (Node.isRoot_or_isState mayLack)
          (Option.isNone_iff_eq_none.1 isNone) _ []
      · exact filed
  · exact filed

theorem addMissingDefault (filed : chart.IsFiled) {node : NodeId}
    (done : chart.addMissingDefault node = .ok after) : after.IsFiled := by
  unfold Chart.addMissingDefault at done
  split at done
  · next kind default owner isKind isParent =>
      split at done
      · cases done
        exact filed
      · split at done
        · cases done
        · split at done
          · cases done
            refine filed.congr (.of_nodes rfl) (fun _ => rfl) (fun _ => rfl)
              (transitionCount_modifyTransition _ _) ?_
            exact transition_modifyTransition_keeps Transition.source (fun _ => by rfl) _
          · cases done
            exact filed.setHistoryDefault (by simp [Node.isHistory, isKind])
              (by simp [Node.historyDefault, isKind]) _ []
  · cases done
    exact filed

theorem addMissingTransitions (filed : chart.IsFiled)
    (done : chart.addMissingTransitions = .ok after) : after.IsFiled := by
  have initials : ∀ state node next, node ∈ chart.nodeIds →
      (Prepares chart state ∧ state.IsFiled) →
      (pure (state.addMissingInitial node) : Except Rejection Chart) = .ok next →
      Prepares chart next ∧ next.IsFiled := by
    intro state node next member ⟨prepared, stateFiled⟩ stepped
    cases stepped
    refine ⟨prepared.trans (.addMissingInitial state node), stateFiled.addMissingInitial ?_⟩
    rw [prepared.sameTree.nodeCount_eq]
    exact List.mem_range.1 member
  have started := foldlM_keeps initials ⟨.refl chart, filed⟩
    (List.foldlM_pure (m := Except Rejection))
  exact foldlM_keeps (fun _ _ _ _ stateFiled stepped => stateFiled.addMissingDefault stepped)
    started.2 done

end IsFiled

end Chart

end Statechart
