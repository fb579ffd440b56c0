import Statechart.Proofs.Configuration.Legality
import Statechart.Proofs.Configuration.Order
import Statechart.Proofs.World.Quiet

/-!
# Which transitions are selected

Selected transitions leave active nodes, their pattern matches an event of the
batch and their condition holds.  Resolving conflicts only drops transitions.
-/

namespace Statechart

namespace Chart

variable {chart : Chart}

/-! ## Candidates -/

/-- Climbing meets only nodes of a set that is closed under parents. -/
theorem mem_of_mem_climb {Known : NodeId → Prop}
    (upward : ∀ node parent, Known node → chart.parent node = some parent → parent ≠ rootId →
      Known parent)
    {limit : Nat} {queue seen : List NodeId} (start : ∀ node ∈ queue, Known node)
    {node : NodeId} (met : node ∈ chart.climb limit queue seen) : Known node := by
  induction limit generalizing queue seen with
  | zero => cases met
  | succ limit ih =>
      cases queue with
      | nil => cases met
      | cons first rest =>
          have firstKnown := start first List.mem_cons_self
          have restKnown : ∀ other ∈ rest, Known other :=
            fun other member => start other (List.mem_cons_of_mem _ member)
          rw [climb] at met
          split at met
          · next parent isParent =>
              split at met
              · next fresh =>
                  have notRoot : parent ≠ rootId := by
                    simpa using (Bool.and_eq_true_iff.1 fresh).1
                  rcases List.mem_cons.1 met with same | later
                  · exact same ▸ firstKnown
                  · refine ih (fun other member => ?_) later
                    rcases List.mem_append.1 member with isRest | isParentNode
                    · exact restKnown other isRest
                    · rw [List.mem_singleton.1 isParentNode]
                      exact upward first parent firstKnown isParent notRoot
              · rcases List.mem_cons.1 met with same | later
                · exact same ▸ firstKnown
                · exact ih restKnown later
          · rcases List.mem_cons.1 met with same | later
            · exact same ▸ firstKnown
            · exact ih restKnown later

/-- Candidates are outgoing transitions of active nodes. -/
theorem exists_active_of_mem_candidates (tree : chart.IsTree) {leaves : NodeSet}
    (atomic : ∀ leaf ∈ leaves, (chart.node leaf).isAtomic = true) {id : TransitionId}
    (candidate : id ∈ chart.candidates leaves) :
    ∃ node ∈ chart.active leaves, id ∈ (chart.node node).transitions := by
  obtain ⟨node, met, outgoing⟩ := List.mem_flatMap.1 candidate
  have start : ∀ leaf ∈ chart.inDocumentOrder leaves.toList, leaf ∈ chart.active leaves :=
    fun leaf member => mem_active_of_mem tree atomic ((mem_sortOrdered _).1 member)
  have upward : ∀ lower upper, lower ∈ chart.active leaves → chart.parent lower = some upper →
      upper ≠ rootId → upper ∈ chart.active leaves :=
    fun lower upper isActive isParent => (tree.isUpward_active leaves).mem_of_isDescendant lower
      upper isActive (tree.isDescendant_of_parent isParent)
  exact ⟨node, mem_of_mem_climb upward start met, outgoing⟩

/-! ## Conflicts -/

theorem mem_of_mem_dropRepeats {ids : List TransitionId} {id : TransitionId}
    (kept : id ∈ dropRepeats ids) : id ∈ ids := by
  induction ids with
  | nil => exact kept
  | cons first rest ih =>
      cases rest with
      | nil => exact kept
      | cons second others =>
          rw [dropRepeats] at kept
          split at kept
          · exact List.mem_cons_of_mem _ (ih kept)
          · rcases List.mem_cons.1 kept with same | later
            · exact same ▸ List.mem_cons_self
            · exact List.mem_cons_of_mem _ (ih later)

theorem mem_of_mem_firstPerSource {contested ids : List TransitionId} {served : List NodeId}
    {id : TransitionId} (kept : id ∈ chart.firstPerSource contested served ids) : id ∈ ids := by
  induction ids generalizing served with
  | nil => exact kept
  | cons first rest ih =>
      rw [firstPerSource] at kept
      split at kept
      · rcases List.mem_cons.1 kept with same | later
        · exact same ▸ List.mem_cons_self
        · exact List.mem_cons_of_mem _ (ih later)
      · split at kept
        · exact List.mem_cons_of_mem _ (ih kept)
        · rcases List.mem_cons.1 kept with same | later
          · exact same ▸ List.mem_cons_self
          · exact List.mem_cons_of_mem _ (ih later)

/-- Only enabled transitions are taken. -/
theorem mem_of_mem_resolveConflicts {enabled : List TransitionId} {id : TransitionId}
    (kept : id ∈ chart.resolveConflicts enabled) : id ∈ enabled := by
  have remains := mem_of_mem_dropRepeats (mem_of_mem_firstPerSource kept)
  exact (List.mem_filter.1 ((mem_sortOrdered _).1 remains)).1

end Chart

namespace World

variable {chart : Chart} {events : List Event} {active : NodeSet}

/-- An enabled transition was a candidate, and enabled in some world on the way. -/
theorem exists_isEnabled_of_mem_enabledOf {world : World} {ids : List TransitionId}
    {id : TransitionId} (enabled : id ∈ (enabledOf chart events active world ids).1) :
    id ∈ ids ∧ ∃ asked : World, Quiet world asked ∧
      (isEnabled chart events active asked id).1 = true := by
  induction ids generalizing world with
  | nil => cases enabled
  | cons first rest ih =>
      have fromRest : id ∈ (enabledOf chart events active
          (isEnabled chart events active world first).2 rest).1 →
          id ∈ first :: rest ∧ ∃ asked : World, Quiet world asked ∧
            (isEnabled chart events active asked id).1 = true := by
        intro later
        obtain ⟨isRest, asked, quiet, holds⟩ := ih later
        exact ⟨List.mem_cons_of_mem _ isRest, asked,
          (Solitary.isEnabled chart events active world first).toQuiet.trans quiet, holds⟩
      rw [enabledOf] at enabled
      dsimp only at enabled
      split at enabled
      · next holds =>
          rcases List.mem_cons.1 enabled with same | later
          · exact ⟨same ▸ List.mem_cons_self, world, .refl world, same ▸ holds⟩
          · exact fromRest later
      · exact fromRest enabled

/-- A selected transition is a candidate that is enabled. -/
theorem mem_select {world : World} {id : TransitionId}
    (selected : id ∈ (world.select chart events).1) :
    id ∈ chart.candidates world.status.leaves ∧
      ∃ asked : World, Quiet world asked ∧
        (isEnabled chart events (chart.active world.status.leaves) asked id).1 = true :=
  exists_isEnabled_of_mem_enabledOf (Chart.mem_of_mem_resolveConflicts selected)

end World

end Statechart
