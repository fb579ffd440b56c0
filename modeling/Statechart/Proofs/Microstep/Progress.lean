import Statechart.Proofs.Microstep.Agreement
import Statechart.Proofs.Microstep.Completion
import Statechart.Proofs.Microstep.Records

/-!
# Where a microstep leads

A status is regular if a microstep can be followed from it: something legal or nothing
is active, and the histories have recorded what lies below their owners.  From a
regular status a microstep leads to a regular one, through the exits and entries of
its resolution.
-/

namespace Statechart

/-- A status from which the exits and entries of a microstep can be told. -/
structure Chart.IsRegular (chart : Chart) (status : Status) : Prop where
  legal : (∃ leaf, leaf ∈ status.leaves) → chart.IsLegalConfiguration status.leaves
  records : chart.RecordsAreValid status.history

theorem Chart.isRegular_empty (chart : Chart) : chart.IsRegular {} := by
  constructor
  · rintro ⟨leaf, isLeaf⟩
    exact absurd isLeaf (NodeSet.not_mem_empty leaf)
  · exact fun id _ recorded found => by cases found

theorem Chart.IsRegular.atomic {chart : Chart} {status : Status}
    (regular : chart.IsRegular status) :
    ∀ leaf ∈ status.leaves, (chart.node leaf).isAtomic = true :=
  fun leaf isLeaf => (regular.legal ⟨leaf, isLeaf⟩).atomic leaf isLeaf

namespace World

/-- A microstep that leads from one configuration to the next. -/
structure Advances (chart : Chart) (transitions : List TransitionId) (resolution : Resolution)
    (before left after : World) : Prop
    extends Proceeds chart transitions resolution before left after where
  leads : chart.LeadsFrom before.status.leaves resolution

variable {program : Program} (executable : program.chart.IsExecutable)
  (parallels : program.chart.ParallelsHaveChildren) {world after : World}
  {initial : Option TransitionId} {events : List Event} {transitions : List TransitionId}
include executable

/-- Transitions are selected at active states; only the initial one starts at the root,
where nothing is active. -/
theorem isActive_source_of_microstep (regular : program.chart.IsRegular world.status)
    (fresh : initial.isSome = true → ¬ ∃ leaf, leaf ∈ world.status.leaves)
    (done : world.microstep program initial events = .ok (transitions, after))
    (occupied : ∃ leaf, leaf ∈ world.status.leaves) :
    ∀ id ∈ transitions,
      (program.chart.transition id).source ∈ program.chart.active world.status.leaves := by
  obtain ⟨asked, status, chosen, -⟩ := exists_carriesOut_of_microstep done
  intro id isTransition
  cases initial with
  | some first => exact absurd occupied (fresh rfl)
  | none =>
      have legal := regular.legal occupied
      rw [← status] at legal ⊢
      rw [chosen] at isTransition
      exact (executable.source_of_mem_select legal isTransition).1

include parallels

theorem exists_advances_of_microstep (regular : program.chart.IsRegular world.status)
    (fresh : initial.isSome = true → ¬ ∃ leaf, leaf ∈ world.status.leaves)
    (done : world.microstep program initial events = .ok (transitions, after)) :
    ∃ resolution left, Advances program.chart transitions resolution world left after := by
  obtain ⟨resolution, left, proceeds⟩ := exists_proceeds_of_microstep done
  -- At the root, where nothing is active, only the initial transition starts.
  have proper : (∃ leaf, leaf ∈ world.status.leaves) →
      ∀ id ∈ transitions, program.chart.IsProper (program.chart.transition id).source :=
    fun occupied id isTransition => (regular.legal occupied).isProper executable.tree
      (isActive_source_of_microstep executable regular fresh done occupied id isTransition)
  exact ⟨resolution, left, proceeds,
    executable.leadsFrom_of_resolve parallels regular.records proper proceeds.resolves⟩

omit parallels in
theorem Advances.isRegular {resolution : Resolution} {left : World}
    (regular : program.chart.IsRegular world.status)
    (advances : Advances program.chart transitions resolution world left after) :
    program.chart.IsRegular after.status where
  legal _ := by
    rw [advances.carries.leaves_eq]
    exact advances.leads.legal
  records := by
    rw [advances.carries.history_eq]
    exact recordsAreValid_recordsAfter executable regular.atomic rfl regular.records
      advances.leads.isActive_of_exited

end World

end Statechart
