import Statechart.Proofs.Chart.Descent

/-!
# Effective ids

A node that declares an id bears it, and every other node bears one made up of
the id of its owner, the word for its kind and its number among the members of
that kind.  This file says what the ids are; how validation hands them out is
another matter.
-/

namespace Statechart

namespace Chart

variable {chart before after : Chart}

/-! ## Members -/

theorem IsPlanted.mem_membersOf (tree : chart.IsPlanted) {owner member : NodeId} :
    member ∈ chart.membersOf owner ↔ chart.parent member = some owner := by
  rw [membersOf, List.mem_append, tree.mem_histories, tree.mem_children, ← and_or_left]
  cases (chart.node member).isHistory <;> simp

theorem IsPlanted.nodup_membersOf (tree : chart.IsPlanted) (owner : NodeId) :
    (chart.membersOf owner).Nodup := by
  refine List.nodup_append.2 ⟨?_, tree.nodup_children owner, ?_⟩
  · exact (tree.increasing_histories owner).imp Nat.ne_of_lt
  · rintro history isHistory child isChild rfl
    have isNone := ((tree.mem_children owner history).1 isChild).2
    rw [((tree.mem_histories owner history).1 isHistory).2] at isNone
    cases isNone

theorem SameTree.membersOf_eq (same : SameTree before after) (owner : NodeId) :
    after.membersOf owner = before.membersOf owner := by
  rw [membersOf, membersOf, same.histories_eq, same.children_eq]

theorem kindWord_bare (node : Node) :
    kindWord { node with kind := node.kind.bare } = kindWord node := by
  unfold kindWord
  rcases node.kind with _ | ⟨_, _ | _⟩ | _ | _ <;> rfl

/-- The word for the kind of a node is told by its place in the tree. -/
theorem kindWord_of_position {first second : Node} (same : first.position = second.position) :
    kindWord first = kindWord second := by
  have kinds : first.kind.bare = second.kind.bare := congrArg Node.Position.kind same
  rw [← kindWord_bare first, ← kindWord_bare second]
  unfold kindWord
  rw [kinds]

/-! ## Ids -/

/-- The number of a member among those of its kind, in the order of its owner's members. -/
def numberOf (chart : Chart) (owner member : NodeId) : Nat :=
  let members := chart.membersOf owner
  ((members.take (members.idxOf member + 1)).map (fun other => kindWord (chart.node other))).count
    (kindWord (chart.node member))

/-- The id of a node: the name of the chart for the root, the declared id or the one made up
for it otherwise. -/
def effectiveId (chart : Chart) (id : NodeId) : String :=
  match chart.parent id with
  | none => chart.name.getD "scxml"
  | some owner =>
    if owner < id then
      (chart.node id).declaredId.getD
        s!"{chart.effectiveId owner}:{kindWord (chart.node id)}{chart.numberOf owner id}"
    else
      ""
termination_by id

/-- Different nodes have different ids. -/
def HasDistinctIds (chart : Chart) : Prop :=
  ∀ a b, chart.IsProper a → chart.IsProper b → chart.effectiveId a = chart.effectiveId b → a = b

theorem IsPlanted.effectiveId_root (tree : chart.IsPlanted) :
    chart.effectiveId rootId = chart.name.getD "scxml" := by
  rw [effectiveId, tree.parent_root]

theorem IsPlanted.effectiveId_of_parent (tree : chart.IsPlanted) {id owner : NodeId}
    (isParent : chart.parent id = some owner) :
    chart.effectiveId id = (chart.node id).declaredId.getD
      s!"{chart.effectiveId owner}:{kindWord (chart.node id)}{chart.numberOf owner id}" := by
  rw [effectiveId, isParent]
  exact if_pos (tree.parent_lt isParent)

theorem SameTree.numberOf_eq (same : SameTree before after) (owner member : NodeId) :
    after.numberOf owner member = before.numberOf owner member := by
  have words : ∀ id, kindWord (after.node id) = kindWord (before.node id) :=
    fun id => kindWord_of_position (same.position_eq id)
  simp only [numberOf, same.membersOf_eq, words]

/-- Ids depend on the tree, the name of the chart and the declared ids only. -/
theorem SameTree.effectiveId_eq (same : SameTree before after) (names : after.name = before.name)
    (declared : ∀ id, (after.node id).declaredId = (before.node id).declaredId) :
    after.effectiveId = before.effectiveId := by
  funext id
  induction id using Nat.strongRecOn with
  | ind id ih =>
      rw [effectiveId, effectiveId, same.parent_eq, names, declared,
        kindWord_of_position (same.position_eq id)]
      cases before.parent id with
      | none => rfl
      | some owner =>
          by_cases below : owner < id
          · simp only [below, if_true, ih owner below, same.numberOf_eq]
          · simp only [below, if_false]

end Chart

end Statechart
