import Statechart.Proofs.Microstep.Flags

/-!
# Records and flags that fit the chart

A deep history remembers atomic states below its owner and a shallow one children of
its owner, at least one in either case, and the machine is final just as long as a
final state at the top is active.  A microstep keeps this, also where a parallel is
without children.
-/

namespace Statechart

namespace Chart

/-- What a history may remember of its owner. -/
def IsRecordable (chart : Chart) (kind : HistoryKind) (owner state : NodeId) : Prop :=
  match kind with
  | .deep => (chart.node state).isAtomic = true ∧ chart.isDescendant state owner = true
  | .shallow => state ∈ (chart.node owner).children

instance (chart : Chart) (kind : HistoryKind) (owner state : NodeId) :
    Decidable (chart.IsRecordable kind owner state) :=
  match kind with
  | .deep => inferInstanceAs (Decidable (_ ∧ _))
  | .shallow => inferInstanceAs (Decidable (state ∈ (chart.node owner).children))

/-- A history of some kind and its owner. -/
def IsHistoryOf (chart : Chart) (kind : HistoryKind) (owner history : NodeId) : Prop :=
  (∃ default, (chart.node history).kind = .history kind default) ∧
    chart.parent history = some owner

/-- The histories have recorded what they may remember, and the machine is final if a final
state at the top is active. -/
structure IsCoherent (chart : Chart) (status : Status) : Prop where
  records : ∀ kind owner history, chart.IsHistoryOf kind owner history →
    ∀ recorded, status.history.find? history = some recorded →
      recorded ≠ [] ∧ ∀ state ∈ recorded, chart.IsRecordable kind owner state
  isFinal_iff : status.isFinal = true ↔ chart.HasFinalChild (status.active chart) rootId

theorem isCoherent_empty {chart : Chart} (tree : chart.IsTree) : chart.IsCoherent {} where
  records _ _ _ _ recorded found := by cases found
  isFinal_iff := (tellsCompletion_empty tree).isFinal_iff

end Chart

namespace World

/-- An active state has something to be remembered of by each of its histories. -/
theorem isRecordable_recordOf {chart : Chart} (executable : chart.IsExecutable)
    {leaves : NodeSet} (atomic : ∀ leaf ∈ leaves, (chart.node leaf).isAtomic = true)
    {kind : HistoryKind} {owner history : NodeId}
    (isHistoryOf : chart.IsHistoryOf kind owner history)
    (isActive : owner ∈ chart.active leaves) :
    recordOf chart leaves owner kind ≠ [] ∧
      ∀ state ∈ recordOf chart leaves owner kind, chart.IsRecordable kind owner state := by
  obtain ⟨⟨default, isKind⟩, isParent⟩ := isHistoryOf
  have isMember : history ∈ (chart.node owner).histories :=
    (executable.tree.mem_histories owner history).2 ⟨isParent, by simp [Node.isHistory, isKind]⟩
  obtain ⟨nonempty, below⟩ := recordOf_isValid executable atomic isActive isMember kind
  refine ⟨nonempty, fun state member => ?_⟩
  cases kind with
  | deep => exact ⟨atomic state (mem_recordOf_deep.1 member).1, below state member⟩
  | shallow => exact (mem_recordOf_shallow.1 member).1

/-- A microstep from a configuration of leaves keeps records and flags coherent, where no
final state has been reached yet. -/
theorem Proceeds.isCoherent {chart : Chart} {transitions : List TransitionId}
    {resolution : Resolution} {before left after : World} (executable : chart.IsExecutable)
    (atomic : ∀ leaf ∈ before.status.leaves, (chart.node leaf).isAtomic = true)
    (notFinal : before.status.isFinal = false) (coherent : chart.IsCoherent before.status)
    (proceeds : Proceeds chart transitions resolution before left after) :
    chart.IsCoherent after.status where
  records := by
    intro kind owner history isHistoryOf recorded found
    have ⟨⟨default, isKind⟩, isParent⟩ := isHistoryOf
    rw [proceeds.carries.history_eq,
      find?_recordsAfter executable.tree isKind isParent before.status resolution] at found
    split at found
    · next exited =>
        obtain rfl := Option.some.inj found
        have isActive := (Chart.mem_leavesBehind.1
          ((Chart.mem_exited_iff proceeds.resolves).1 exited)).1
        exact isRecordable_recordOf executable atomic isHistoryOf isActive
    · exact coherent.records kind owner history isHistoryOf recorded found
  isFinal_iff := proceeds.isFinal_after executable.tree coherent.isFinal_iff notFinal

end World

end Statechart
