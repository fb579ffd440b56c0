import Statechart.Proofs.Chart.Editing
import Statechart.Proofs.Chart.Executable

/-!
# Validated charts have an address for every node

A machine is created from a validated chart, whether that was made of a definition or edited.  It
has an initial transition, and its nodes are found by their ids.  Edits that leave a chart
validated change neither, and to validate a chart that is sound makes it ready for linking even
if it is rejected then.
-/

namespace Statechart

namespace Chart

variable {chart before after : Chart}

/-- Whether a sound chart is accepted or rejected, validation leaves it ready for linking. -/
theorem IsGrown.isReady_of_validate (grown : chart.IsGrown) (sound : chart.IsSound) :
    Yields IsReady (fun rejection => rejection.chart.IsReady) chart.validate := by
  unfold validate
  split
  · next noStates => exact absurd (List.isEmpty_iff.1 noStates) sound.topLevel
  · have named : Yields (fun named => Revises chart named ∧ named.BearsIds)
        (fun rejection => rejection.chart.IsReady) chart.assignIds := by
      have revises : ∀ named, chart.assignIds = .ok named → Revises chart named :=
        fun named done => ((assignIds_decides grown).of_eq_ok done).1
      exact ((assignIds_yields grown.planted).and_ok revises).imp
        (fun named known => ⟨known.2, known.1.2⟩) fun _ misnamed => absurd sound.distinct misnamed.1
    refine named.bind _ ?_
    rintro named ⟨revises, bears⟩
    refine Yields.bind (fun completed => completed.IsReady ∧ completed.root.children ≠ []) ?_ ?_
    · refine (addMissingTransitions_decides revises.isGrown bears).imp ?_ ?_
      · rintro completed ⟨further, ready⟩
        refine ⟨ready, ?_⟩
        rw [root, (revises.trans further).restates.sameTree.children_eq]
        exact sound.topLevel
      · exact fun _ flawed => absurd (revises.isSound_iff.2 sound) flawed.1
    · rintro completed ⟨ready, topLevel⟩
      obtain ⟨ordering, ordered⟩ := ready.assignOrder
      have stillTopLevel : completed.assignOrder.root.children ≠ [] := by
        rw [root, ordering.restates.sameTree.children_eq]
        exact topLevel
      rw [← bind_assoc]
      refine Yields.bind IsReady ?_ ?_
      · exact Yields.imp (ordered.decides_link stillTopLevel)
          (fun _ linked => ordered.relinks linked.1) fun _ flawed => ordered.relinks flawed.1
      · exact fun last lastReady => lastReady.reproduces (.of_eq rfl rfl rfl) rfl fun _ => rfl

/-- A chart whose nodes are found by their ids, and that a machine can be started with. -/
structure IsAddressed (chart : Chart) : Prop where
  finds : chart.FindsById
  rootInitial : chart.root.initial.isSome = true

theorem IsReady.isAddressed (ready : chart.IsReady) (topLevel : chart.root.children ≠ []) :
    chart.IsAddressed where
  finds := ready.bears.finds
  rootInitial := by
    have isRoot := ready.grown.planted.isRoot_root
    exact ready.hasInitial rootId ready.grown.planted.nonempty (by rw [isRoot]; rfl) topLevel

theorem IsExecutable.isAddressed (executable : chart.IsExecutable) : chart.IsAddressed where
  finds := executable.finds
  rootInitial := by
    obtain ⟨transition, isInitial, -⟩ := executable.rootInitial
    rw [isInitial]
    rfl

/-- Changing the content of a node moves no node and no initial transition. -/
theorem IsAddressed.modifyNode (addressed : chart.IsAddressed) {change : Node → Node}
    (keepsPosition : ∀ node, (change node).position = node.position)
    (keepsId : ∀ node, (change node).id = node.id)
    (keepsInitial : ∀ node, (change node).initial = node.initial) (id : NodeId) :
    (chart.modifyNode id change).IsAddressed where
  finds := addressed.finds.congr (.modifyNode keepsPosition id) rfl
    (node_modifyNode_keeps Node.id keepsId id)
  rootInitial := by
    rw [root, node_modifyNode_keeps Node.initial keepsInitial id]
    exact addressed.rootInitial

/-- As long as an edited chart counts as validated, its nodes have their addresses. -/
theorem IsEdited.isAddressed (edited : chart.IsEdited) (validated : chart.isValidated = true) :
    chart.IsAddressed := by
  induction edited with
  | empty name => cases validated
  | @edit chart edited edit callable ih =>
      have kept := edited.isKept
      cases edit with
      | state | parallel | history | transition => cases validated
      | initial node next actions =>
          rw [Edit.apply, setInitial_eq] at validated
          cases validated
      | historyDefault owner next actions =>
          rw [Edit.apply, setHistoryDefault_eq] at validated
          cases validated
      | onEntry node actions =>
          refine (ih validated).modifyNode ?_ ?_ ?_ node
          all_goals exact fun _ => rfl
      | onExit node actions =>
          refine (ih validated).modifyNode ?_ ?_ ?_ node
          all_goals exact fun _ => rfl
      | invocation node given =>
          refine (ih validated).modifyNode ?_ ?_ ?_ node
          all_goals exact fun _ => rfl
      | validate =>
          have decides := validate_decides kept.isGrown
          have sound := (IsKept.validate kept).isSound validated
          unfold Edit.apply at validated sound ⊢
          cases outcome : chart.validate with
          | ok after =>
              rw [outcome] at decides sound
              have ready := kept.isGrown.isReady_of_validate decides.isWellFormed.sound
              rw [outcome] at ready
              exact IsReady.isAddressed ready sound.topLevel
          | error rejection =>
              rw [outcome] at decides validated sound
              have ready := kept.isGrown.isReady_of_validate
                (kept.isSound (decides.revises.isValidated validated))
              rw [outcome] at ready
              exact IsReady.isAddressed ready sound.topLevel

/-- A chart that counts as validated, made of a definition or edited. -/
def IsAccredited (chart : Chart) : Prop :=
  (∃ definition, Machine.chartOf definition = .ok chart) ∨
    chart.IsEdited ∧ chart.isValidated = true

theorem IsAccredited.isAddressed (accredited : chart.IsAccredited) : chart.IsAddressed := by
  rcases accredited with ⟨definition, isChart⟩ | ⟨edited, validated⟩
  · exact (isExecutable_of_chartOf isChart).isAddressed
  · exact edited.isAddressed validated

end Chart

end Statechart
