import Statechart.Machine.Basic
import Statechart.Proofs.Chart.Places
import Statechart.Proofs.Chart.Validated

/-!
# Places in the document

Validation numbers nodes and transitions in the order in which it walks over the
document.  The walk reaches every state and parallel, and with them their outgoing
transitions, so that no two of these have the same number.
-/

namespace Statechart

namespace Chart

variable {chart after : Chart}

/-- Different outgoing transitions of states and parallels have different places. -/
def HasDistinctOrders (chart : Chart) : Prop :=
  ∀ first second, (chart.node first).isHistory = false → (chart.node second).isHistory = false →
    ∀ a ∈ (chart.node first).transitions, ∀ b ∈ (chart.node second).transitions,
      (chart.transition a).order = (chart.transition b).order → a = b

/-- No two outgoing transitions get the same number. -/
theorem IsBuilt.hasDistinctOrders (built : chart.IsBuilt) :
    chart.assignOrder.HasDistinctOrders := by
  have reproduces := (reproduces_assignOrder chart).1
  have found : ∀ id, (chart.assignOrder.node id).isHistory = false →
      ∀ a ∈ (chart.assignOrder.node id).transitions,
        chart.places[(chart.assignOrder.transition a).order]? = some (.transition a) := by
    intro id regular a outgoing
    rw [reproduces.sameTree.isHistory_eq] at regular
    rw [reproduces.part_eq Node.transitions fun _ => rfl] at outgoing
    have inside : id < chart.nodeCount := by
      by_contra outside
      rw [node_of_le (Nat.le_of_not_lt outside)] at outgoing
      exact List.not_mem_nil outgoing
    have present : chart.IsPlace (.transition a) :=
      (built.owned.own id a (List.mem_append_right _ outgoing)).1
    refine getElem?_orderOf_assignOrder present (List.mem_flatMap.2 ⟨id, ?_, ?_⟩)
    · exact built.tree.mem_documentWalk inside regular
    · exact List.mem_append_right _ (List.mem_map_of_mem outgoing)
  intro first second regularFirst regularSecond a outgoingA b outgoingB same
  have atA := found first regularFirst a outgoingA
  rw [same, found second regularSecond b outgoingB] at atA
  exact (Place.transition.inj (Option.some.inj atA)).symm

/-- Linking leaves all places alone. -/
theorem HasDistinctOrders.links {before : Chart} (distinct : before.HasDistinctOrders)
    (links : Links before after) : after.HasDistinctOrders := by
  intro first second
  rw [links.node_eq, links.node_eq]
  intro regularFirst regularSecond a outgoingA b outgoingB same
  rw [links.order_eq, links.order_eq] at same
  exact distinct first second regularFirst regularSecond a outgoingA b outgoingB same

/-- In a chart that validation accepts, different outgoing transitions have different places. -/
theorem hasDistinctOrders_of_validate (built : chart.IsBuilt) (done : chart.validate = .ok after) :
    after.HasDistinctOrders := by
  obtain ⟨named, completed, last, passes, rfl⟩ := exists_passes_of_validate done
  have completedBuilt : completed.IsBuilt :=
    passes.prepares.isBuilt ((passes.names built.tree.toIsPlanted).1.isBuilt built)
  exact completedBuilt.hasDistinctOrders.links (passes.links built.isGrown)

theorem hasDistinctOrders_of_chartOf {definition : Definition}
    (done : Machine.chartOf definition = .ok chart) : chart.HasDistinctOrders := by
  unfold Machine.chartOf at done
  split at done
  · cases done
  · next isChart =>
      split at done
      · cases done
      · next isValid =>
          cases done
          exact hasDistinctOrders_of_validate (isBuilt_ofDefinition isChart) isValid

end Chart

end Statechart
