import Statechart.Proofs.Chart.Descent
import Statechart.Proofs.Chart.Naming
import Statechart.Proofs.Chart.Preparation

/-!
# Linking transitions to their targets

The last part of validation finds the targets of all transitions and checks the
rules of the tree.  It changes nothing but targets, and always to what the ids
of the transition lead to, so whatever has been checked stays true.
-/

namespace Statechart

namespace Chart

variable {chart before after : Chart}

/-- The nodes that the ids of a transition lead to. -/
def findNext (chart : Chart) (id : TransitionId) : Except String (List NodeId) :=
  chart.findTargets ((chart.transition id).next.getD "")

/-- A step of validation that finds targets. -/
structure Links (before after : Chart) : Prop where
  name_eq : after.name = before.name
  nodes_eq : after.nodes = before.nodes
  ids_eq : after.ids = before.ids
  transitionCount_eq : after.transitionCount = before.transitionCount
  next_eq : ∀ id, (after.transition id).next = (before.transition id).next
  source_eq : ∀ id, (after.transition id).source = (before.transition id).source
  order_eq : ∀ id, (after.transition id).order = (before.transition id).order
  targets : ∀ id, (after.transition id).targets = (before.transition id).targets ∨
    before.findNext id = .ok (after.transition id).targets

namespace Links

theorem refl (chart : Chart) : Links chart chart :=
  ⟨rfl, rfl, rfl, rfl, fun _ => rfl, fun _ => rfl, fun _ => rfl, fun _ => .inl rfl⟩

/-- That a chart counts as validated concerns no link. -/
theorem validated (chart : Chart) : Links chart { chart with isValidated := true } :=
  ⟨rfl, rfl, rfl, rfl, fun _ => rfl, fun _ => rfl, fun _ => rfl, fun _ => .inl rfl⟩

theorem findTargets_eq (links : Links before after) : after.findTargets = before.findTargets := by
  funext next
  rw [findTargets, findTargets]
  unfold lookup
  rw [links.ids_eq]

theorem findNext_eq (links : Links before after) (id : TransitionId) :
    after.findNext id = before.findNext id := by
  rw [findNext, findNext, links.findTargets_eq, links.next_eq]

theorem trans {first second third : Chart} (left : Links first second)
    (right : Links second third) : Links first third where
  name_eq := right.name_eq.trans left.name_eq
  nodes_eq := right.nodes_eq.trans left.nodes_eq
  ids_eq := right.ids_eq.trans left.ids_eq
  transitionCount_eq := right.transitionCount_eq.trans left.transitionCount_eq
  next_eq := fun id => (right.next_eq id).trans (left.next_eq id)
  source_eq := fun id => (right.source_eq id).trans (left.source_eq id)
  order_eq := fun id => (right.order_eq id).trans (left.order_eq id)
  targets := by
    intro id
    rcases right.targets id with same | found
    · rw [same]
      exact left.targets id
    · exact .inr (left.findNext_eq id ▸ found)

theorem sameTree (links : Links before after) : SameTree before after :=
  .of_nodes links.nodes_eq

theorem node_eq (links : Links before after) (id : NodeId) : after.node id = before.node id :=
  node_congr links.nodes_eq id

end Links

/-- A transition has the targets that its ids lead to. -/
def IsLinked (chart : Chart) (id : TransitionId) : Prop :=
  chart.findNext id = .ok (chart.transition id).targets

theorem IsLinked.links {id : TransitionId} (linked : before.IsLinked id)
    (links : Links before after) : after.IsLinked id := by
  rw [IsLinked, links.findNext_eq]
  rcases links.targets id with same | found
  · exact same ▸ linked
  · exact found

/-- A transition has been linked, to targets of some kind. -/
def IsLinkedTo (chart : Chart) (id : TransitionId) (Kind : List NodeId → Prop) : Prop :=
  chart.IsLinked id ∧ Kind (chart.transition id).targets

theorem IsLinkedTo.links {id : TransitionId} {Kind : List NodeId → Prop}
    (linked : before.IsLinkedTo id Kind) (links : Links before after) :
    after.IsLinkedTo id Kind := by
  refine ⟨linked.1.links links, ?_⟩
  have found := linked.1.links links
  rw [IsLinked, links.findNext_eq, linked.1] at found
  exact Except.ok.inj found ▸ linked.2

/-! ## Linking one transition -/

/-- The ids of a transition that is not there lead to nothing. -/
theorem findNext_of_le {id : TransitionId} (outside : chart.transitionCount ≤ id) :
    chart.findNext id = .ok [] := by
  rw [findNext, transition_of_le outside]
  rfl

/-- A chart with the targets of a transition replaced. -/
def withTargets (chart : Chart) (id : TransitionId) (targets : List NodeId) : Chart :=
  chart.modifyTransition id (fun transition => { transition with targets })

theorem transition_withTargets_self {id : TransitionId} {targets : List NodeId}
    (found : chart.findNext id = .ok targets) :
    (chart.withTargets id targets).transition id = { chart.transition id with targets } := by
  rcases Nat.lt_or_ge id chart.transitionCount with inside | outside
  · exact transition_modifyTransition_self inside _
  · rw [findNext_of_le outside] at found
    cases found
    rw [transition_of_le outside, transition_of_le]
    · rfl
    · rw [withTargets, transitionCount_modifyTransition]
      exact outside

theorem Links.withTargets {id : TransitionId} {targets : List NodeId}
    (found : chart.findNext id = .ok targets) : Links chart (chart.withTargets id targets) where
  name_eq := rfl
  nodes_eq := rfl
  ids_eq := rfl
  transitionCount_eq := transitionCount_modifyTransition _ _
  next_eq := transition_modifyTransition_keeps Transition.next (fun _ => by rfl) id
  source_eq := transition_modifyTransition_keeps Transition.source (fun _ => by rfl) id
  order_eq := transition_modifyTransition_keeps Transition.order (fun _ => by rfl) id
  targets := by
    intro other
    by_cases same : other = id
    · rw [same, transition_withTargets_self found]
      exact .inr found
    · rw [Chart.withTargets, transition_modifyTransition_of_ne same]
      exact .inl rfl

theorem isLinkedTo_linkTargets {source : NodeId} {id : TransitionId} {next : String}
    {targets : List NodeId} {Kind : List NodeId → Prop} (found : chart.findNext id = .ok targets)
    (kind : chart.areLegalTargets targets = true → Kind targets)
    (done : chart.linkTargets source id next targets = .ok after) :
    Links chart after ∧ after.IsLinkedTo id Kind := by
  unfold linkTargets at done
  split at done
  · next legal =>
      cases done
      have links := Links.withTargets found
      refine ⟨links, ?_⟩
      rw [← withTargets, IsLinkedTo, IsLinked, links.findNext_eq, transition_withTargets_self found]
      exact ⟨found, kind legal⟩
  · cases done

end Chart

end Statechart
