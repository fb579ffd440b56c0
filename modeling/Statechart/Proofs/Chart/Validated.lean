import Statechart.Proofs.Chart.Acceptance
import Statechart.Proofs.Chart.Places

/-!
# The stages of a validation that succeeds

Validation names the nodes, adds what was left out, numbers the places and links the
transitions.  A chart that passes has been through all four stages.
-/

namespace Statechart

namespace Chart

variable {chart named completed last after : Chart}

theorem Links.orderOf_eq {before : Chart} (links : Links before after) :
    after.orderOf = before.orderOf := by
  funext place
  cases place with
  | node id => exact congrArg Node.order (links.node_eq id)
  | transition id => exact links.order_eq id

/-- The charts that a validation has led through when it succeeds. -/
structure Passes (chart named completed last : Chart) : Prop where
  topLevel : chart.root.children ≠ []
  named_eq : chart.assignIds = .ok named
  completed_eq : named.addMissingTransitions = .ok completed
  last_eq : (completed.assignOrder.resolveRootInitial >>= fun rooted =>
    (rooted.nodeIds.drop 1).foldlM checkNode rooted) = .ok last

theorem exists_passes_of_validate (done : chart.validate = .ok after) :
    ∃ named completed last, Passes chart named completed last ∧
      after = { last with isValidated := true } := by
  unfold validate at done
  split at done
  · cases done
  · next hasStates =>
      obtain ⟨named, isNamed, done⟩ := exists_of_bind_eq_ok done
      obtain ⟨completed, isCompleted, done⟩ := exists_of_bind_eq_ok done
      rw [← bind_assoc] at done
      obtain ⟨last, isLast, finished⟩ := exists_of_bind_eq_ok done
      cases finished
      exact ⟨named, completed, last, ⟨by simpa using hasStates, isNamed, isCompleted, isLast⟩, rfl⟩

namespace Passes

variable (passes : Passes chart named completed last)
include passes

theorem validate_eq : chart.validate = .ok { last with isValidated := true } := by
  have next : ∀ {State : Type} (state : State) (step : State → Except Rejection Chart),
      (Except.ok state >>= step) = step state := fun _ _ => rfl
  unfold validate
  rw [if_neg (fun noStates => passes.topLevel (List.isEmpty_iff.1 noStates)), passes.named_eq,
    next, passes.completed_eq, next, ← bind_assoc, passes.last_eq]
  rfl

theorem names (tree : chart.IsPlanted) : Renames chart named ∧ named.BearsIds :=
  (assignIds_yields tree).of_eq_ok passes.named_eq

theorem prepares : Prepares named completed :=
  (hasInitial_addMissingTransitions passes.completed_eq).1

variable (grown : chart.IsGrown)
include grown

theorem completes : Revises chart completed ∧ completed.IsReady := by
  obtain ⟨revises, bears⟩ := (assignIds_decides grown).of_eq_ok passes.named_eq
  obtain ⟨further, ready⟩ := (addMissingTransitions_decides revises.isGrown bears).of_eq_ok
    passes.completed_eq
  exact ⟨revises.trans further, ready⟩

theorem links : Links completed.assignOrder { last with isValidated := true } := by
  obtain ⟨revises, ready⟩ := passes.completes grown
  obtain ⟨ordering, ordered⟩ := ready.assignOrder
  have topLevel : completed.assignOrder.root.children ≠ [] := by
    rw [root, (revises.trans ordering).restates.sameTree.children_eq]
    exact passes.topLevel
  have relinks := ((ordered.decides_link topLevel).of_eq_ok passes.last_eq).1
  exact relinks.toLinks.trans (.validated last)

theorem reproduces : Reproduces completed { last with isValidated := true } :=
  (reproduces_assignOrder completed).1.trans (passes.links grown).reproduces

/-- A chart that has passed is as ready for linking as it was before. -/
theorem isReady : IsReady { last with isValidated := true } := by
  have links := passes.links grown
  exact (passes.completes grown).2.assignOrder.2.reproduces links.reproduces links.ids_eq
    fun id => congrArg Node.id (links.node_eq id)

/-- The places of a chart that has passed have the numbers from zero up to their count. -/
theorem map_orderOf :
    (places { last with isValidated := true }).map (orderOf { last with isValidated := true }) =
      List.range (places { last with isValidated := true }).length := by
  rw [(passes.reproduces grown).places_eq, (passes.links grown).orderOf_eq]
  exact (passes.completes grown).2.grown.map_orderOf_assignOrder

end Passes

end Chart

end Statechart
