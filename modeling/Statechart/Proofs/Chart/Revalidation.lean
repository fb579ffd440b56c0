import Statechart.Proofs.Chart.Editing
import Statechart.Proofs.Chart.Places
import Statechart.Proofs.Chart.Settling
import Statechart.Proofs.Chart.Validated

/-!
# Validation of a validated chart

Each stage of validation leaves a chart that it would not change: ids are those that naming
gives, no initial or default transition is missing, places have their numbers and
transitions their targets.  Later stages keep this, so a chart that has passed passes again
as it is.
-/

namespace Statechart

/-- A node is told by its ids and by what it is without them. -/
theorem Node.eq_of_unnamed_eq {first second : Node} (unnamed : first.unnamed = second.unnamed)
    (clientId : first.clientId = second.clientId) (id : first.id = second.id) :
    first = second := by
  cases first
  cases second
  simp_all [Node.unnamed]

namespace Chart

variable {chart named completed last before after : Chart}

/-! ## Naming -/

/-- What naming records is told by the tree and the effective ids. -/
theorem SameTree.recordIds_eq (same : SameTree before after)
    (effectiveId_eq : after.effectiveId = before.effectiveId) :
    after.recordIds (after.namingWalk.flatMap after.membersOf) =
      before.recordIds (before.namingWalk.flatMap before.membersOf) := by
  have members : after.membersOf = before.membersOf := funext same.membersOf_eq
  rw [recordIds, recordIds, effectiveId_eq, namingWalk, namingWalk, members, same.nodeCount_eq]

/-- All nodes have the ids that naming gives them, and are recorded by them. -/
structure IsNamed (chart : Chart) : Prop where
  clientId_eq : ∀ id, id < chart.nodeCount → (chart.node id).clientId = chart.effectiveId id
  idOf_eq : ∀ id, id < chart.nodeCount → chart.idOf id = chart.effectiveId id
  ids_eq : chart.ids = chart.recordIds (chart.namingWalk.flatMap chart.membersOf)

namespace IsNamed

theorem of_isNaming (tree : chart.IsPlanted)
    (naming : IsNaming chart (chart.namingWalk.flatMap chart.membersOf) named) :
    named.IsNamed := by
  have same := naming.renames.sameTree
  have listed : ∀ id, id < named.nodeCount →
      id = rootId ∨ id ∈ chart.namingWalk.flatMap chart.membersOf := by
    intro id inside
    refine (eq_or_ne id rootId).imp_right fun notRoot => ?_
    exact tree.mem_namedNodes.2 ⟨notRoot, same.nodeCount_eq ▸ inside⟩
  refine ⟨fun id inside => ?_, fun id inside => ?_, ?_⟩
  · rw [naming.renames.effectiveId_eq]
    exact naming.clientId_eq id (listed id inside)
  · rw [naming.renames.effectiveId_eq]
    rcases listed id inside with rfl | member
    · exact naming.idOf_root
    · exact naming.idOf_eq id member
  · exact naming.ids_eq.trans (same.recordIds_eq naming.renames.effectiveId_eq).symm

theorem congr (isNamed : before.IsNamed) (same : SameTree before after)
    (effectiveId_eq : after.effectiveId = before.effectiveId) (ids_eq : after.ids = before.ids)
    (clientId_eq : ∀ id, (after.node id).clientId = (before.node id).clientId)
    (idOf_eq : ∀ id, after.idOf id = before.idOf id) : after.IsNamed where
  clientId_eq := by
    intro id inside
    rw [clientId_eq, effectiveId_eq]
    exact isNamed.clientId_eq id (same.nodeCount_eq ▸ inside)
  idOf_eq := by
    intro id inside
    rw [idOf_eq, effectiveId_eq]
    exact isNamed.idOf_eq id (same.nodeCount_eq ▸ inside)
  ids_eq := ids_eq.trans (isNamed.ids_eq.trans (same.recordIds_eq effectiveId_eq).symm)

/-- Two charts that are both named differ in nothing if they differ in ids only. -/
theorem eq_of_renames (isNamed : before.IsNamed) (renamed : after.IsNamed)
    (renames : Renames before after) : after = before := by
  have effectiveIds := renames.effectiveId_eq
  have nodes : after.nodes = before.nodes := by
    refine nodes_eq_of_node_eq renames.nodeCount_eq fun id => ?_
    rcases Nat.lt_or_ge id after.nodeCount with inside | outside
    · have insideBefore : id < before.nodeCount := renames.nodeCount_eq ▸ inside
      refine Node.eq_of_unnamed_eq (renames.unnamed_eq id) ?_ ?_
      · rw [renamed.clientId_eq id inside, isNamed.clientId_eq id insideBefore, effectiveIds]
      · exact (renamed.idOf_eq id inside).trans
          ((congrFun effectiveIds id).trans (isNamed.idOf_eq id insideBefore).symm)
    · rw [node_of_le outside, node_of_le (renames.nodeCount_eq ▸ outside)]
  have ids : after.ids = before.ids :=
    renamed.ids_eq.trans ((renames.sameTree.recordIds_eq effectiveIds).trans isNamed.ids_eq.symm)
  obtain ⟨-, -, transitions, name, checksum, isValidated⟩ := renames
  cases before
  cases after
  simp_all

/-- Naming a chart again whose nodes have their ids changes nothing. -/
theorem assignIds_eq_self (isNamed : chart.IsNamed) (tree : chart.IsPlanted)
    (distinct : chart.HasDistinctIds) : chart.assignIds = .ok chart := by
  have names := assignIds_names tree
  cases outcome : chart.assignIds with
  | error rejection => exact absurd distinct (names.of_eq_error outcome).1
  | ok after =>
      have naming := names.of_eq_ok outcome
      rw [isNamed.eq_of_renames (.of_isNaming tree naming) naming.renames]

end IsNamed

/-! ## Transitions that were left out -/

theorem addMissingInitial_eq_self {node : NodeId} (has : chart.HasInitial node) :
    chart.addMissingInitial node = chart := by
  unfold addMissingInitial
  dsimp only
  split
  · next lacks =>
      obtain ⟨mayLack, isNone⟩ := Bool.and_eq_true_iff.1 lacks
      split
      · next first rest children =>
          have isSome := has (Node.isRoot_or_isState mayLack)
            (by rw [children]; exact List.cons_ne_nil first rest)
          rw [Option.isNone_iff_eq_none.1 isNone] at isSome
          cases isSome
      · rfl
  · rfl

/-- A history of a sound chart declares default targets, once it has a default transition. -/
theorem IsReady.addMissingDefault_eq_self (ready : chart.IsReady) (sound : chart.IsSound)
    (node : NodeId) : chart.addMissingDefault node = .ok chart := by
  unfold addMissingDefault
  split
  · next kind default owner isKind isParent =>
      have isHistory : (chart.node node).isHistory = true := by simp [Node.isHistory, isKind]
      obtain ⟨transition, isDefault, words⟩ :=
        ready.hasDefault node (lt_nodeCount_of_parent isParent) isHistory
      have isTransition : default = some transition := by
        simpa [Node.historyDefault, isKind] using isDefault
      have proper : chart.IsProper node :=
        ⟨ready.grown.planted.ne_root_of_parent isParent, lt_nodeCount_of_parent isParent⟩
      have lead := (sound.nodes node proper).default kind owner
        (by rw [isKind, NodeKind.bare]) isParent
      have declared : (chart.declaredNext default).isSome = true := by
        rw [isTransition, declaredNext, Option.bind_some]
        cases isNext : (chart.transition transition).next with
        | some next => rfl
        | none =>
            rw [← words, nextWords, isNext] at lead
            exact absurd lead not_leadTo_nil
      rw [if_pos declared]
  · rfl

theorem IsReady.addMissingTransitions_eq_self (ready : chart.IsReady) (sound : chart.IsSound) :
    chart.addMissingTransitions = .ok chart := by
  have initials : chart.nodeIds.foldl addMissingInitial chart = chart :=
    foldl_eq_self fun node member =>
      addMissingInitial_eq_self (ready.hasInitial node (List.mem_range.1 member))
  rw [addMissingTransitions, initials]
  exact foldlM_eq_ok_self fun node _ => ready.addMissingDefault_eq_self sound node

/-! ## Validation -/

theorem Passes.isNamed (passes : Passes chart named completed last) (grown : chart.IsGrown) :
    IsNamed { last with isValidated := true } := by
  have naming := (assignIds_names grown.planted).of_eq_ok passes.named_eq
  have prepares := passes.prepares.trans (.assignOrder completed)
  have links := passes.links grown
  have effectiveIds := (passes.completes grown).1.restates.trans (passes.reproduces grown).restates
  refine (IsNamed.of_isNaming grown.planted naming).congr
    (prepares.sameTree.trans links.sameTree) ?_ (links.ids_eq.trans prepares.ids_eq)
    (fun id => ?_) fun id => ?_
  · exact effectiveIds.effectiveId_eq.trans naming.renames.effectiveId_eq.symm
  · rw [links.node_eq, prepares.clientId_eq]
  · rw [idOf, links.node_eq]
    exact prepares.idOf_eq id

/-- A chart that has passed validation passes again as it is. -/
theorem IsGrown.validate_eq_self (grown : chart.IsGrown) (done : chart.validate = .ok after) :
    after.validate = .ok after := by
  have accepted := grown.isAccepted_of_validate done
  have sound := accepted.restates.isSound accepted.isWellFormed.sound
  obtain ⟨named, completed, last, passes, isAfter⟩ := exists_passes_of_validate done
  have ready : after.IsReady := isAfter ▸ passes.isReady grown
  have isNamed : after.IsNamed := isAfter ▸ passes.isNamed grown
  have orders : after.places.map after.orderOf = List.range after.places.length :=
    isAfter ▸ passes.map_orderOf grown
  have linked : (after.resolveRootInitial >>= fun rooted =>
      (rooted.nodeIds.drop 1).foldlM checkNode rooted) = .ok after :=
    (settles_link _ last passes.last_eq).2 after (isAfter ▸ .validated last)
  have again : Passes after after after after :=
    ⟨sound.topLevel, isNamed.assignIds_eq_self ready.grown.planted sound.distinct,
      ready.addMissingTransitions_eq_self sound, (assignOrder_eq_self orders).symm ▸ linked⟩
  rw [again.validate_eq, isAfter]

/-- Whatever edits have made of a chart, validating it again once it has passed changes nothing. -/
theorem revalidation_changes_nothing (edited : chart.IsEdited)
    (done : chart.validate = .ok after) : after.validate = .ok after :=
  edited.isKept.isGrown.validate_eq_self done

/-- A cellar with an anonymous room, in which one of two shelves is remembered.  Nothing is said
of where one starts. -/
def cellar : Chart :=
  [.state rootId none false, .state 1 none false, .state 1 (some "shelf") false,
    .history 1 none .deep, .transition 2 (some "move") none (some "shelf") []].foldl
    (fun chart edit => Edit.apply chart edit) (.empty (some "cellar"))

theorem isEdited_cellar : cellar.IsEdited := by
  have room := (IsEdited.empty (some "cellar")).edit_of_node? (.state rootId none false) rfl
    (by decide +kernel)
  have first := room.edit_of_node? (.state 1 none false) rfl (by decide +kernel)
  have second := first.edit_of_node? (.state 1 (some "shelf") false) rfl (by decide +kernel)
  have remembered := second.edit_of_node? (.history 1 none .deep) rfl (by decide +kernel)
  exact remembered.edit_of_node? (.transition 2 (some "move") none (some "shelf") []) rfl
    (by decide +kernel)

/-- Validation adds three transitions to the cellar the first time, and none the second time. -/
theorem cellar_is_completed_once :
    cellar.transitionCount = 1 ∧ ∃ after, (cellar.IsEdited ∧ cellar.validate = .ok after) ∧
      after.transitionCount = 4 ∧ after.validate = .ok after := by
  have counts : cellar.transitionCount = 1 ∧
      cellar.validate.toOption.map transitionCount = some 4 := by decide +kernel
  refine ⟨counts.1, ?_⟩
  cases done : cellar.validate with
  | error rejection => simp [done, Except.toOption] at counts
  | ok after =>
      rw [done] at counts
      exact ⟨after, ⟨isEdited_cellar, rfl⟩, Option.some.inj counts.2,
        revalidation_changes_nothing isEdited_cellar done⟩

/-- The chart that a machine runs is as validation leaves it. -/
theorem validate_eq_self_of_chartOf {definition : Definition}
    (done : Machine.chartOf definition = .ok chart) : chart.validate = .ok chart := by
  unfold Machine.chartOf at done
  split at done
  · cases done
  · next isChart =>
      split at done
      · cases done
      · next isValid =>
          cases done
          exact (isBuilt_ofDefinition isChart).isGrown.validate_eq_self isValid

end Chart

end Statechart
