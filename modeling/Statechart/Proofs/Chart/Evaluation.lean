import Statechart.Machine.Basic
import Statechart.Proofs.Configuration.Legality
import Statechart.Proofs.Microstep.Expansion

/-!
# Facts about given charts

What is said of all nodes of a chart, legality included, can be checked for a
given definition by evaluation.
-/

namespace Statechart

/-- The chart of a definition, or an empty one if the definition is rejected. -/
def Machine.chartOrEmpty (definition : Definition) : Chart :=
  match chartOf definition with
  | .ok chart => chart
  | .error _ => .empty none

theorem Machine.chartOf_eq_ok {definition : Definition}
    (accepted : (chartOf definition).isOk = true) :
    chartOf definition = .ok (chartOrEmpty definition) := by
  rw [chartOrEmpty]
  cases isChart : chartOf definition with
  | error fault => simp [isChart, Except.isOk, Except.toBool] at accepted
  | ok chart => rfl

namespace Chart

variable {chart : Chart}

/-- What holds of a node without content holds of all nodes of a chart if it holds of
those that are there. -/
theorem forall_node_of_all (holds : Node → Bool) (ofDefault : holds default = true)
    (all : chart.nodes.all holds = true) (id : NodeId) : holds (chart.node id) = true := by
  rcases Nat.lt_or_ge id chart.nodeCount with inside | outside
  · have present : id < chart.nodes.size := inside
    have found := Array.all_eq_true.1 all id present
    simpa [node, Array.getD_eq_getD_getElem?, present] using found
  · rw [node_of_le outside]
    exact ofDefault

theorem noHistories_of_all (all : chart.nodes.all (fun node => !node.isHistory) = true)
    (id : NodeId) : (chart.node id).isHistory = false := by
  simpa using forall_node_of_all (fun node => !node.isHistory) rfl all id

theorem parallelsHaveChildren_of_all
    (all : chart.nodes.all (fun node => !node.isParallel || !node.children.isEmpty) = true) :
    chart.ParallelsHaveChildren := by
  intro id isParallel
  have holds := forall_node_of_all
    (fun node => !node.isParallel || !node.children.isEmpty) rfl all id
  simpa [isParallel] using holds

theorem recordsAreValid_of_all {history : NodeMap (List NodeId)}
    (all : history.entries.all (fun entry => !entry.2.isEmpty && entry.2.all (fun node =>
      chart.isDescendant node ((chart.parent entry.1).getD rootId))) = true) :
    chart.RecordsAreValid history := by
  intro id _ recorded found
  have holds := List.all_eq_true.1 all (id, recorded) (Entries.mem_of_find? found)
  rw [Bool.and_eq_true, Bool.not_eq_true', List.isEmpty_eq_false_iff, List.all_eq_true] at holds
  refine ⟨holds.1, fun node member owner isOwner => ?_⟩
  have below := holds.2 node member
  rwa [isOwner, Option.getD_some] at below

theorem isLegalConfiguration_of_violations {definition : Definition} {leaves : NodeSet}
    (done : Machine.chartOf definition = .ok chart) (none : chart.violations leaves = []) :
    chart.IsLegalConfiguration leaves :=
  (isExecutable_of_chartOf done).tree.violations_eq_nil_iff.1 none

end Chart

end Statechart
