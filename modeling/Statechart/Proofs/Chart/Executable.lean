import Statechart.Machine.Basic
import Statechart.Proofs.Chart.Linking
import Statechart.Proofs.Chart.OfDefinition

/-!
# What validation promises

A chart that has passed validation is executable: it is a tree whose nodes are
found by their ids, its transitions lead to nodes that may be active together,
composite states and histories know where to go, and no region is atomic.  This
is all that the microsteps rely on.
-/

namespace Statechart

namespace Chart

variable {chart before after : Chart}

/-- The initial targets of a composite state lie below it and are legal together. -/
def AreInitialTargets (chart : Chart) (state : NodeId) (targets : List NodeId) : Prop :=
  targets ≠ [] ∧ (∀ target ∈ targets, chart.isDescendant target state = true) ∧
    chart.areLegalTargets targets = true

/-- The default targets of a history suit it and are legal together. -/
def AreDefaultTargets (chart : Chart) (history : NodeId) (targets : List NodeId) : Prop :=
  targets ≠ [] ∧ (∀ target ∈ targets, ∀ kind default,
    (chart.node history).kind = .history kind default →
      chart.suitsHistory kind ((chart.parent history).getD rootId) target = true) ∧
    chart.areLegalTargets targets = true

theorem Links.areInitialTargets_eq (links : Links before after) :
    after.AreInitialTargets = before.AreInitialTargets := by
  funext state targets
  simp only [AreInitialTargets, links.sameTree.isDescendant_eq, links.sameTree.areLegalTargets_eq]

theorem Links.areDefaultTargets_eq (links : Links before after) :
    after.AreDefaultTargets = before.AreDefaultTargets := by
  funext history targets
  simp only [AreDefaultTargets, links.node_eq, links.sameTree.suitsHistory_eq,
    links.sameTree.parent_eq, links.sameTree.areLegalTargets_eq]

/-- What has been checked of a node, and linked, once its turn has come. -/
structure IsChecked (chart : Chart) (id : NodeId) : Prop where
  histories_eq_nil : (chart.node id).isAtomic = true → (chart.node id).histories = []
  regions : (chart.node id).isParallel = true →
    ∀ region ∈ (chart.node id).children, (chart.node region).isAtomic = false
  initial : (chart.node id).isState = true → ∀ transition,
    (chart.node id).initial = some transition →
      chart.IsLinkedTo transition (chart.AreInitialTargets id)
  default : (chart.node id).isHistory = true → ∃ transition,
    (chart.node id).historyDefault = some transition ∧
      chart.IsLinkedTo transition (chart.AreDefaultTargets id)
  outgoing : (chart.node id).isHistory = false → ∀ transition ∈ (chart.node id).transitions,
    chart.IsLinkedTo transition (fun targets => chart.areLegalTargets targets = true)

theorem IsChecked.links {id : NodeId} (checked : before.IsChecked id)
    (links : Links before after) : after.IsChecked id where
  histories_eq_nil := links.node_eq id ▸ checked.histories_eq_nil
  regions := by
    simp only [links.node_eq]
    exact checked.regions
  initial := by
    rw [links.node_eq, links.areInitialTargets_eq]
    exact fun isState transition isInitial =>
      (checked.initial isState transition isInitial).links links
  default := by
    rw [links.node_eq, links.areDefaultTargets_eq]
    intro isHistory
    obtain ⟨transition, isDefault, linked⟩ := checked.default isHistory
    exact ⟨transition, isDefault, linked.links links⟩
  outgoing := by
    rw [links.node_eq, links.sameTree.areLegalTargets_eq]
    exact fun notHistory transition member =>
      (checked.outgoing notHistory transition member).links links

/-! ## Checking one node -/

theorem isLinkedTo_resolveRootInitial (done : chart.resolveRootInitial = .ok after) :
    Links chart after ∧ ∃ transition, after.root.initial = some transition ∧
      after.IsLinkedTo transition
        (fun targets => targets ≠ [] ∧ after.areLegalTargets targets = true) := by
  unfold resolveRootInitial at done
  split at done
  · cases done
  · next transition isInitial =>
      dsimp only at done
      split at done
      · cases done
      · cases done
      · next targets notEmpty found =>
          obtain ⟨links, linked⟩ : Links chart after ∧ after.IsLinkedTo transition
              (fun targets => targets ≠ [] ∧ chart.areLegalTargets targets = true) :=
            isLinkedTo_linkTargets found (fun legal => ⟨notEmpty, legal⟩) done
          refine ⟨links, transition, ?_, ?_⟩
          · rw [root, links.node_eq]
            exact isInitial
          · rw [links.sameTree.areLegalTargets_eq]
            exact linked

theorem isLinkedTo_resolveInitial {state : NodeId} {transition : TransitionId}
    (done : chart.resolveInitial state transition = .ok after) :
    Links chart after ∧ after.IsLinkedTo transition (after.AreInitialTargets state) := by
  unfold resolveInitial at done
  dsimp only at done
  split at done
  · cases done
  · cases done
  · next targets notEmpty found =>
      split at done
      · next below =>
          obtain ⟨links, linked⟩ :
              Links chart after ∧ after.IsLinkedTo transition (chart.AreInitialTargets state) :=
            isLinkedTo_linkTargets found
              (fun legal => ⟨notEmpty, List.all_eq_true.1 below, legal⟩) done
          exact ⟨links, links.areInitialTargets_eq ▸ linked⟩
      · cases done

theorem isLinkedTo_resolveHistory {history : NodeId} {kind : HistoryKind}
    {default : Option TransitionId} (isKind : (chart.node history).kind = .history kind default)
    (done : chart.resolveHistory history kind default = .ok after) :
    Links chart after ∧ ∃ transition, default = some transition ∧
      after.IsLinkedTo transition (after.AreDefaultTargets history) := by
  unfold resolveHistory at done
  dsimp only at done
  split at done
  · cases done
  · next transition =>
      split at done
      · cases done
      · cases done
      · next targets notEmpty found =>
          split at done
          · next suits =>
              have kindOf : chart.areLegalTargets targets = true →
                  chart.AreDefaultTargets history targets := by
                refine fun legal => ⟨notEmpty, fun target member kind default isOther => ?_, legal⟩
                rw [isKind] at isOther
                cases isOther
                exact List.all_eq_true.1 suits target member
              obtain ⟨links, linked⟩ := isLinkedTo_linkTargets found kindOf done
              exact ⟨links, transition, rfl, links.areDefaultTargets_eq ▸ linked⟩
          · cases done

/-- The charts that linking reaches from one that has not been linked at all. -/
structure IsLinking (start chart : Chart) : Prop where
  isBuilt : start.IsBuilt
  links : Links start chart

theorem IsLinking.isLinked_of_next_eq_none {start : Chart} {id : TransitionId}
    (linking : IsLinking start chart) (noNext : (chart.transition id).next = none) :
    chart.IsLinkedTo id (fun targets => chart.areLegalTargets targets = true) := by
  have found : chart.findNext id = .ok [] := by
    rw [findNext, noNext]
    rfl
  have noTargets : (chart.transition id).targets = [] := by
    rcases linking.links.targets id with same | isNext
    · exact same.trans (linking.isBuilt.unlinked id)
    · rw [← linking.links.findNext_eq, found] at isNext
      exact (Except.ok.inj isNext).symm
  rw [IsLinkedTo, IsLinked, noTargets]
  exact ⟨found, rfl⟩

theorem IsLinking.resolveOutgoing {start : Chart} {node : NodeId} {id : TransitionId}
    (linking : IsLinking start chart) (done : chart.resolveOutgoing node id = .ok after) :
    Links chart after ∧
      after.IsLinkedTo id (fun targets => after.areLegalTargets targets = true) := by
  unfold Chart.resolveOutgoing at done
  split at done
  · next noNext =>
      cases done
      exact ⟨.refl chart, linking.isLinked_of_next_eq_none noNext⟩
  · next next isNext =>
      split at done
      · cases done
      · next targets found =>
          rw [← Option.getD_some (a := next) (b := ""), ← isNext] at found
          obtain ⟨links, linked⟩ : Links chart after ∧
              after.IsLinkedTo id (fun targets => chart.areLegalTargets targets = true) :=
            isLinkedTo_linkTargets found (fun legal => legal) done
          exact ⟨links, links.sameTree.areLegalTargets_eq ▸ linked⟩

/-- Checking the content of a node links all its outgoing transitions. -/
theorem IsLinking.checkContent {start : Chart} {node : NodeId} (linking : IsLinking start chart)
    (done : chart.checkContent node = .ok after) :
    Links chart after ∧ ∀ transition ∈ (after.node node).transitions,
      after.IsLinkedTo transition (fun targets => after.areLegalTargets targets = true) := by
  unfold Chart.checkContent at done
  split at done
  · cases done
  · have steps : ∀ state transition next, transition ∈ (chart.node node).transitions →
        Links chart state → state.resolveOutgoing node transition = .ok next →
        Links chart next ∧
          next.IsLinkedTo transition (fun targets => chart.areLegalTargets targets = true) ∧
          ∀ other, state.IsLinkedTo other (fun targets => chart.areLegalTargets targets = true) →
            next.IsLinkedTo other (fun targets => chart.areLegalTargets targets = true) := by
      intro state transition next _ links stepped
      have stateLinking : IsLinking start state := ⟨linking.isBuilt, linking.links.trans links⟩
      obtain ⟨linksNext, linked⟩ := stateLinking.resolveOutgoing stepped
      rw [(links.trans linksNext).sameTree.areLegalTargets_eq] at linked
      exact ⟨links.trans linksNext, linked, fun other earlier => earlier.links linksNext⟩
    obtain ⟨links, linked, -⟩ := foldlM_achieves steps (.refl chart) done
    refine ⟨links, ?_⟩
    rw [links.node_eq, links.sameTree.areLegalTargets_eq]
    exact linked

/-- A state is checked once its initial transition is linked and its content checked. -/
theorem IsLinking.isChecked_of_isState {start middle : Chart} {id : NodeId}
    {initial : Option TransitionId} {isFinal : Bool} (linking : IsLinking start chart)
    (isKind : (chart.node id).kind = .state initial isFinal)
    (noHistories : (chart.node id).isAtomic = true → (chart.node id).histories = [])
    (links : Links chart middle)
    (linked : ∀ transition, initial = some transition →
      middle.IsLinkedTo transition (middle.AreInitialTargets id))
    (checked : middle.checkContent id = .ok after) : Links chart after ∧ after.IsChecked id := by
  have isNoParallel : (chart.node id).isParallel = false := by simp [Node.isParallel, isKind]
  have isNoHistory : (chart.node id).isHistory = false := by simp [Node.isHistory, isKind]
  have isInitial : (chart.node id).initial = initial := by simp [Node.initial, isKind]
  have middleLinking : IsLinking start middle := ⟨linking.isBuilt, linking.links.trans links⟩
  obtain ⟨further, outgoing⟩ := middleLinking.checkContent checked
  have all := links.trans further
  refine ⟨all, ?_, ?_, ?_, ?_, fun _ => outgoing⟩
  · rw [all.node_eq]
    exact noHistories
  · rw [all.node_eq, isNoParallel]
    exact fun isParallel => absurd isParallel Bool.false_ne_true
  · rw [all.node_eq, isInitial, further.areInitialTargets_eq]
    exact fun _ transition same => (linked transition same).links further
  · rw [all.node_eq, isNoHistory]
    exact fun isHistory => absurd isHistory Bool.false_ne_true

theorem IsLinking.checkNode {start : Chart} {id : NodeId} (linking : IsLinking start chart)
    (done : chart.checkNode id = .ok after) : Links chart after ∧ after.IsChecked id := by
  unfold Chart.checkNode at done
  dsimp only at done
  split at done
  · next initial isFinal isKind =>
      split at done
      · cases done
      · next unlessAtomic =>
          have noHistories : (chart.node id).isAtomic = true → (chart.node id).histories = [] := by
            simpa [Node.isAtomic, Node.isState, isKind] using unlessAtomic
          split at done
          · next transition =>
              obtain ⟨middle, resolved, checked⟩ := exists_of_bind_eq_ok done
              obtain ⟨links, linked⟩ := isLinkedTo_resolveInitial resolved
              exact linking.isChecked_of_isState isKind noHistories links
                (fun _ same => Option.some.inj same ▸ linked) checked
          · exact linking.isChecked_of_isState isKind noHistories (.refl chart)
              (fun transition same => absurd same.symm (Option.some_ne_none transition)) done
  · next isKind =>
      split at done
      · cases done
      · next noneAtomic =>
          obtain ⟨links, outgoing⟩ := linking.checkContent done
          refine ⟨links, ?_, ?_, ?_, ?_, fun _ => outgoing⟩
          · simp [links.node_eq, Node.isAtomic, Node.isState, isKind]
          · intro _ region member
            rw [links.node_eq] at member
            rw [links.node_eq]
            simpa using List.find?_eq_none.1 noneAtomic region member
          · simp [links.node_eq, Node.isState, isKind]
          · simp [links.node_eq, Node.isHistory, isKind]
  · next kind default isKind =>
      obtain ⟨links, linked⟩ := isLinkedTo_resolveHistory isKind done
      refine ⟨links, ?_, ?_, ?_, ?_, ?_⟩
      · simp [links.node_eq, Node.isAtomic, Node.isState, isKind]
      · simp [links.node_eq, Node.isParallel, isKind]
      · simp [links.node_eq, Node.isState, isKind]
      · simpa [links.node_eq, Node.historyDefault, isKind] using fun _ => linked
      · simp [links.node_eq, Node.isHistory, isKind]
  · next initial isKind =>
      obtain ⟨links, outgoing⟩ := linking.checkContent done
      refine ⟨links, ?_, ?_, ?_, ?_, fun _ => outgoing⟩
      · simp [links.node_eq, Node.isAtomic, Node.isState, isKind]
      · simp [links.node_eq, Node.isParallel, isKind]
      · simp [links.node_eq, Node.isState, isKind]
      · simp [links.node_eq, Node.isHistory, isKind]

/-! ## Validated charts -/

/-- What the microsteps rely on. -/
structure IsExecutable (chart : Chart) : Prop where
  tree : chart.IsTree
  finds : chart.FindsById
  source_eq : ∀ id, ∀ transition ∈ (chart.node id).transitions,
    (chart.transition transition).source = id
  isNode_target : ∀ transition, ∀ target ∈ (chart.transition transition).targets,
    target ≠ rootId ∧ target < chart.nodeCount
  rootInitial : ∃ transition, chart.root.initial = some transition ∧
    (chart.transition transition).targets ≠ [] ∧
    chart.areLegalTargets (chart.transition transition).targets = true
  histories_eq_nil : ∀ id, (chart.node id).isAtomic = true → (chart.node id).histories = []
  regions : ∀ id, (chart.node id).isParallel = true →
    ∀ region ∈ (chart.node id).children, (chart.node region).isAtomic = false
  initial : ∀ id, (chart.node id).isComposite = true → ∃ transition,
    (chart.node id).initial = some transition ∧
      chart.AreInitialTargets id (chart.transition transition).targets
  default : ∀ id, (chart.node id).isHistory = true → ∃ transition,
    (chart.node id).historyDefault = some transition ∧
      chart.AreDefaultTargets id (chart.transition transition).targets
  outgoing : ∀ id, id ≠ rootId → (chart.node id).isHistory = false →
    ∀ transition ∈ (chart.node id).transitions,
      chart.areLegalTargets (chart.transition transition).targets = true

/-- The root and nodes that are not there are neither states, parallels nor
histories. -/
theorem IsTree.kinds_of_notNode (tree : chart.IsTree) {id : NodeId}
    (notNode : id = rootId ∨ chart.nodeCount ≤ id) :
    (chart.node id).isState = false ∧ (chart.node id).isParallel = false ∧
      (chart.node id).isHistory = false := by
  have isRoot : (chart.node id).isRoot = true := by
    rcases notNode with same | outside
    · exact same ▸ tree.isRoot_root
    · rw [node_of_le outside]
      rfl
  unfold Node.isRoot at isRoot
  cases kind : (chart.node id).kind <;>
    simp_all [Node.isState, Node.isParallel, Node.isHistory]

/-- Linking makes a chart executable once every node has been checked. -/
theorem IsLinking.isExecutable {start : Chart} (linking : IsLinking start chart)
    (finds : start.FindsById)
    (hasInitial : ∀ id, id < start.nodeCount → start.HasInitial id)
    (rootInitial : ∃ transition, chart.root.initial = some transition ∧
      chart.IsLinkedTo transition
        (fun targets => targets ≠ [] ∧ chart.areLegalTargets targets = true))
    (checked : ∀ id, id ≠ rootId → id < chart.nodeCount → chart.IsChecked id) :
    chart.IsExecutable := by
  have links := linking.links
  have tree : chart.IsTree := links.sameTree.isTree linking.isBuilt.tree
  have isNode : ∀ id, (chart.node id).isState = true ∨ (chart.node id).isParallel = true ∨
      (chart.node id).isHistory = true → chart.IsChecked id := by
    intro id isNode
    by_cases notNode : id = rootId ∨ chart.nodeCount ≤ id
    · simp [tree.kinds_of_notNode notNode] at isNode
    · rw [not_or, Nat.not_le] at notNode
      exact checked id notNode.1 notNode.2
  refine ⟨tree, ?_, ?_, ?_, ?_, ?_, ?_, ?_, ?_, ?_⟩
  · exact finds.congr links.sameTree links.ids_eq fun id => congrArg Node.id (links.node_eq id)
  · intro id transition member
    rw [links.node_eq] at member
    rw [links.source_eq]
    exact (linking.isBuilt.owned.own id transition (List.mem_append_right _ member)).2
  · intro transition target member
    rw [links.sameTree.nodeCount_eq]
    rcases links.targets transition with same | found
    · rw [same, linking.isBuilt.unlinked] at member
      exact absurd member List.not_mem_nil
    · exact (finds.findTargets_eq_ok_iff.1 found).1 target member
  · obtain ⟨transition, isInitial, -, notEmpty, legal⟩ := rootInitial
    exact ⟨transition, isInitial, notEmpty, legal⟩
  · intro id isAtomic
    have isState := (Bool.and_eq_true_iff.1 isAtomic).1
    exact (isNode id (.inl isState)).histories_eq_nil isAtomic
  · exact fun id isParallel => (isNode id (.inr (.inl isParallel))).regions isParallel
  · intro id isComposite
    obtain ⟨isState, hasChildren⟩ := Bool.and_eq_true_iff.1 isComposite
    have inside : id < start.nodeCount := by
      apply Nat.lt_of_not_le
      intro outside
      rw [links.node_eq, node_of_le outside] at isState
      cases isState
    have isSome : (chart.node id).initial.isSome = true := by
      rw [links.node_eq] at isState hasChildren ⊢
      exact hasInitial id inside (by simp [isState]) (by simpa using hasChildren)
    obtain ⟨transition, isInitial⟩ := Option.isSome_iff_exists.1 isSome
    exact ⟨transition, isInitial,
      ((isNode id (.inl isState)).initial isState transition isInitial).2⟩
  · intro id isHistory
    obtain ⟨transition, isDefault, -, areTargets⟩ :=
      (isNode id (.inr (.inr isHistory))).default isHistory
    exact ⟨transition, isDefault, areTargets⟩
  · intro id notRoot notHistory transition member
    have inside : id < chart.nodeCount := by
      apply Nat.lt_of_not_le
      intro outside
      rw [node_of_le outside] at member
      exact absurd member List.not_mem_nil
    exact ((checked id notRoot inside).outgoing notHistory transition member).2

/-- A validation that succeeds has named all nodes and added what was left out, and has then
linked and checked them all. -/
theorem exists_isLinking_of_validate (built : chart.IsBuilt) (done : chart.validate = .ok after) :
    ∃ start, IsLinking start after ∧ start.FindsById ∧
      (∀ id, id < start.nodeCount → start.HasInitial id) ∧
      (∃ transition, after.root.initial = some transition ∧
        after.IsLinkedTo transition
          (fun targets => targets ≠ [] ∧ after.areLegalTargets targets = true)) ∧
      ∀ id, id ≠ rootId → id < after.nodeCount → after.IsChecked id := by
  unfold validate at done
  split at done
  · cases done
  · obtain ⟨named, isNamed, done⟩ := exists_of_bind_eq_ok done
    obtain ⟨completed, isCompleted, done⟩ := exists_of_bind_eq_ok done
    obtain ⟨rooted, isRooted, done⟩ := exists_of_bind_eq_ok done
    obtain ⟨last, isLast, finished⟩ := exists_of_bind_eq_ok done
    cases finished
    obtain ⟨renames, bears⟩ := (assignIds_yields built.tree.toIsPlanted).of_eq_ok isNamed
    obtain ⟨completes, hasInitial⟩ := hasInitial_addMissingTransitions isCompleted
    have prepares := completes.trans (.assignOrder completed)
    have orderedBuilt := prepares.isBuilt (renames.isBuilt built)
    obtain ⟨linksRoot, transition, isInitial, linkedRoot⟩ := isLinkedTo_resolveRootInitial isRooted
    have steps : ∀ state id next, id ∈ rooted.nodeIds.drop 1 → Links rooted state →
        state.checkNode id = .ok next →
        Links rooted next ∧ next.IsChecked id ∧
          ∀ other, state.IsChecked other → next.IsChecked other := by
      intro state id next _ links stepped
      have linking : IsLinking completed.assignOrder state :=
        ⟨orderedBuilt, linksRoot.trans links⟩
      obtain ⟨linksNext, checked⟩ := linking.checkNode stepped
      exact ⟨links.trans linksNext, checked, fun other earlier => earlier.links linksNext⟩
    obtain ⟨linksNodes, checked, -⟩ := foldlM_achieves steps (.refl rooted) isLast
    have finishes := Links.validated last
    have linksAll := linksNodes.trans finishes
    have finds := bears.finds.congr prepares.sameTree prepares.ids_eq prepares.idOf_eq
    refine ⟨completed.assignOrder, ⟨orderedBuilt, linksRoot.trans linksAll⟩, finds, ?_, ?_, ?_⟩
    · intro id inside
      rw [prepares.sameTree.nodeCount_eq] at inside
      exact (hasInitial id inside).prepares (.assignOrder completed)
    · refine ⟨transition, ?_, ?_⟩
      · rw [root, linksAll.node_eq]
        exact isInitial
      · rw [linksAll.sameTree.areLegalTargets_eq]
        exact linkedRoot.links linksAll
    · intro id notRoot inside
      rw [linksAll.sameTree.nodeCount_eq] at inside
      exact (checked id (mem_drop_nodeIds.2 ⟨notRoot, inside⟩)).links finishes

/-- A chart that validation accepts is executable. -/
theorem isExecutable_of_validate (built : chart.IsBuilt) (done : chart.validate = .ok after) :
    after.IsExecutable := by
  obtain ⟨start, linking, finds, hasInitial, rootInitial, checked⟩ :=
    exists_isLinking_of_validate built done
  exact linking.isExecutable finds hasInitial rootInitial checked

/-- Validation leaves the root and every composite state with an initial transition that has the
targets its ids lead to. -/
theorem exists_isLinked_initial (built : chart.IsBuilt) (done : chart.validate = .ok after)
    {id : NodeId} (mayHave : id = rootId ∨ (after.node id).isComposite = true) :
    ∃ transition, (after.node id).initial = some transition ∧ after.IsLinked transition := by
  obtain ⟨start, linking, -, -, ⟨first, isFirst, linkedFirst⟩, checked⟩ :=
    exists_isLinking_of_validate built done
  have executable := isExecutable_of_validate built done
  by_cases isRoot : id = rootId
  · exact ⟨first, isRoot ▸ isFirst, linkedFirst.1⟩
  · have isComposite := mayHave.resolve_left isRoot
    have isState := (Bool.and_eq_true_iff.1 isComposite).1
    obtain ⟨transition, isInitial, -⟩ := executable.initial id isComposite
    have inside : id < after.nodeCount := by
      apply Nat.lt_of_not_le
      intro outside
      rw [node_of_le outside] at isState
      cases isState
    exact ⟨transition, isInitial, ((checked id isRoot inside).initial isState transition isInitial).1⟩

/-- Looking up the id of a node yields the node. -/
theorem IsExecutable.lookup_idOf (executable : chart.IsExecutable) {id : NodeId}
    (proper : chart.IsProper id) : chart.lookup (chart.idOf id) = some id :=
  (executable.finds _ id).2 ⟨proper, rfl⟩

/-- Different nodes have different ids. -/
theorem IsExecutable.eq_of_idOf_eq (executable : chart.IsExecutable) {a b : NodeId}
    (properA : chart.IsProper a) (properB : chart.IsProper b)
    (same : chart.idOf a = chart.idOf b) : a = b :=
  executable.finds.eq_of_idOf_eq properA properB same

/-- The chart that a machine runs is executable. -/
theorem isExecutable_of_chartOf {definition : Definition}
    (done : Machine.chartOf definition = .ok chart) : chart.IsExecutable := by
  unfold Machine.chartOf at done
  split at done
  · cases done
  · next isChart =>
      split at done
      · cases done
      · next isValid =>
          cases done
          exact isExecutable_of_validate (isBuilt_ofDefinition isChart) isValid

end Chart

end Statechart
