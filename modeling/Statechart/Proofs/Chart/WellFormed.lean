import Mathlib.Data.List.Basic
import Statechart.Proofs.Chart.Building
import Statechart.Proofs.Chart.EffectiveIds

/-!
# Well-formed charts

What a chart has to be like for validation to accept it, said of the chart as it
was built: nothing has been named, added or linked yet.  Where a chart leaves out
an initial or a default transition, its words are those that validation fills in.
Charts that restate each other are well-formed together.
-/

namespace Statechart

/-- An invocation has a type and exactly one kind of source. -/
structure Invocation.IsComplete (invocation : Invocation) : Prop where
  service : Text.isBlankText invocation.service = false
  source : invocation.source.isSome = true ↔ invocation.sourceExpression = none

namespace Chart

variable {chart before after : Chart}

/-! ## Words -/

/-- The ids that a transition declares as its targets. -/
def nextWords (chart : Chart) (transition : TransitionId) : List String :=
  Text.words ((chart.transition transition).next.getD "")

/-- A text that counts as absent has no words anyway. -/
theorem words_nonblank (text : Option String) :
    Text.words ((nonblank text).getD "") = Text.words (text.getD "") := by
  cases text with
  | none => rfl
  | some content =>
      cases blank : Text.isBlankText content with
      | false => simp [nonblank, Option.filter, blank]
      | true =>
          have noWords : Text.words content = [] := Text.words_eq_nil blank
          simp [nonblank, Option.filter, blank, noWords, show Text.words "" = [] from rfl]

/-- The ids of the initial targets of the root or a state; the first child stands for those that
the root or a composite state leaves out. -/
def initialWords (chart : Chart) (id : NodeId) : Option (List String) :=
  match (chart.node id).initial with
  | some transition => some (chart.nextWords transition)
  | none =>
    if (chart.node id).isRoot || (chart.node id).isComposite then
      (chart.node id).children.head?.map (fun first => Text.words (chart.effectiveId first))
    else
      none

/-- The ids of the default targets of a history; the initial targets of the owner stand for
those that are left out. -/
def defaultWords (chart : Chart) (history : NodeId) : List String :=
  match chart.declaredNext (chart.node history).historyDefault with
  | some next => Text.words next
  | none => ((chart.parent history).bind chart.initialWords).getD []

/-- The ids of the targets of each outgoing transition that declares some. -/
def outgoingWords (chart : Chart) (id : NodeId) : List (List String) :=
  (chart.node id).transitions.filterMap
    (fun transition => (chart.transition transition).next.map Text.words)

/-! ## Rules -/

/-- Nodes that bear the ids of a list and may be entered together: every two part at a parallel. -/
structure AreTargets (chart : Chart) (words : List String) (targets : List NodeId) : Prop where
  proper : ∀ target ∈ targets, chart.IsProper target
  effectiveId_eq : targets.map chart.effectiveId = words
  legal : targets.Pairwise (fun a b =>
    ∃ meeting, chart.PartAt meeting a b ∧ (chart.node meeting).isParallel = true)

/-- Ids lead to at least one node, and only to nodes that suit. -/
def LeadTo (chart : Chart) (words : List String) (Suits : NodeId → Prop) : Prop :=
  ∃ targets, targets ≠ [] ∧ chart.AreTargets words targets ∧ ∀ target ∈ targets, Suits target

/-- The rules for one node, its invocation apart. -/
structure IsSoundAt (chart : Chart) (id : NodeId) : Prop where
  initial : (chart.node id).isState = true → ∀ words, chart.initialWords id = some words →
    chart.LeadTo words (fun target => chart.isDescendant target id = true)
  default : ∀ kind owner, (chart.node id).kind.bare = .history kind none →
    chart.parent id = some owner →
    chart.LeadTo (chart.defaultWords id) (fun target => chart.suitsHistory kind owner target = true)
  histories_eq_nil : (chart.node id).isState = true → (chart.node id).children = [] →
    (chart.node id).histories = []
  regions : (chart.node id).isParallel = true →
    ∀ region ∈ (chart.node id).children, (chart.node region).isAtomic = false
  outgoing : (chart.node id).isHistory = false → ∀ words ∈ chart.outgoingWords id,
    ∃ targets, chart.AreTargets words targets

/-- A chart that breaks no rule but those for invocations. -/
structure IsSound (chart : Chart) : Prop where
  topLevel : chart.root.children ≠ []
  distinct : chart.HasDistinctIds
  rootInitial : ∃ words, chart.initialWords rootId = some words ∧ chart.LeadTo words fun _ => True
  nodes : ∀ id, chart.IsProper id → chart.IsSoundAt id

/-- The invocation of a node, if it has one, is complete. -/
def HasSoundInvocation (chart : Chart) (id : NodeId) : Prop :=
  ∀ invocation, (chart.node id).invocation = some invocation → invocation.IsComplete

/-- A chart that breaks no rule. -/
structure IsWellFormed (chart : Chart) : Prop where
  sound : chart.IsSound
  invocations : ∀ id, chart.IsProper id → (chart.node id).isHistory = false →
    chart.HasSoundInvocation id

/-! ## Charts that restate each other -/

/-- Two charts with the same tree, the same ids and the same words. -/
structure Restates (before after : Chart) : Prop where
  sameTree : SameTree before after
  effectiveId_eq : after.effectiveId = before.effectiveId
  initialWords_eq : ∀ id, after.initialWords id = before.initialWords id
  defaultWords_eq : ∀ id, (before.node id).isHistory = true →
    after.defaultWords id = before.defaultWords id
  outgoingWords_eq : ∀ id, (before.node id).isHistory = false →
    after.outgoingWords id = before.outgoingWords id

theorem isHistory_of_bare {node : Node} {kind : HistoryKind}
    (isKind : node.kind.bare = .history kind none) : node.isHistory = true := by
  cases given : node.kind <;> simp_all [NodeKind.bare, Node.isHistory]

namespace Restates

theorem refl (chart : Chart) : Restates chart chart :=
  ⟨.refl chart, rfl, fun _ => rfl, fun _ _ => rfl, fun _ _ => rfl⟩

theorem symm (restates : Restates before after) : Restates after before where
  sameTree := restates.sameTree.symm
  effectiveId_eq := restates.effectiveId_eq.symm
  initialWords_eq := fun id => (restates.initialWords_eq id).symm
  defaultWords_eq := fun id isHistory =>
    (restates.defaultWords_eq id (restates.sameTree.isHistory_eq id ▸ isHistory)).symm
  outgoingWords_eq := fun id notHistory =>
    (restates.outgoingWords_eq id (restates.sameTree.isHistory_eq id ▸ notHistory)).symm

theorem trans {first second third : Chart} (left : Restates first second)
    (right : Restates second third) : Restates first third where
  sameTree := left.sameTree.trans right.sameTree
  effectiveId_eq := right.effectiveId_eq.trans left.effectiveId_eq
  initialWords_eq := fun id => (right.initialWords_eq id).trans (left.initialWords_eq id)
  defaultWords_eq := fun id isHistory =>
    (right.defaultWords_eq id (left.sameTree.isHistory_eq id ▸ isHistory)).trans
      (left.defaultWords_eq id isHistory)
  outgoingWords_eq := fun id notHistory =>
    (right.outgoingWords_eq id (left.sameTree.isHistory_eq id ▸ notHistory)).trans
      (left.outgoingWords_eq id notHistory)

theorem hasDistinctIds (restates : Restates before after) (distinct : before.HasDistinctIds) :
    after.HasDistinctIds := by
  intro a b properA properB same
  rw [restates.effectiveId_eq] at same
  exact distinct a b (restates.sameTree.isProper_iff.1 properA)
    (restates.sameTree.isProper_iff.1 properB) same

theorem areTargets (restates : Restates before after) {words : List String}
    {targets : List NodeId} (are : before.AreTargets words targets) :
    after.AreTargets words targets where
  proper := fun target member => restates.sameTree.isProper_iff.2 (are.proper target member)
  effectiveId_eq := restates.effectiveId_eq ▸ are.effectiveId_eq
  legal := by
    simp only [PartAt, restates.sameTree.parent_eq, restates.sameTree.isWithin_eq,
      restates.sameTree.isParallel_eq]
    exact are.legal

theorem areTargets_iff (restates : Restates before after) {words : List String}
    {targets : List NodeId} : after.AreTargets words targets ↔ before.AreTargets words targets :=
  ⟨restates.symm.areTargets, restates.areTargets⟩

theorem leadTo (restates : Restates before after) {words : List String}
    {Suits : NodeId → Prop} (lead : before.LeadTo words Suits) : after.LeadTo words Suits := by
  obtain ⟨targets, notEmpty, are, suit⟩ := lead
  exact ⟨targets, notEmpty, restates.areTargets are, suit⟩

theorem isSoundAt (restates : Restates before after) {id : NodeId}
    (sound : before.IsSoundAt id) : after.IsSoundAt id where
  initial := by
    rw [restates.sameTree.isState_eq, restates.initialWords_eq, restates.sameTree.isDescendant_eq]
    exact fun isState words isInitial => restates.leadTo (sound.initial isState words isInitial)
  default := by
    have kinds : (after.node id).kind.bare = (before.node id).kind.bare :=
      congrArg Node.Position.kind (restates.sameTree.position_eq id)
    rw [kinds, restates.sameTree.parent_eq, restates.sameTree.suitsHistory_eq]
    intro kind owner isKind isParent
    rw [restates.defaultWords_eq id (isHistory_of_bare isKind)]
    exact restates.leadTo (sound.default kind owner isKind isParent)
  histories_eq_nil := by
    rw [restates.sameTree.isState_eq, restates.sameTree.children_eq,
      restates.sameTree.histories_eq]
    exact sound.histories_eq_nil
  regions := by
    simp only [restates.sameTree.isParallel_eq, restates.sameTree.children_eq,
      restates.sameTree.isAtomic_eq]
    exact sound.regions
  outgoing := by
    rw [restates.sameTree.isHistory_eq]
    intro notHistory words isOutgoing
    rw [restates.outgoingWords_eq id notHistory] at isOutgoing
    obtain ⟨targets, are⟩ := sound.outgoing notHistory words isOutgoing
    exact ⟨targets, restates.areTargets are⟩

theorem isSound (restates : Restates before after) (sound : before.IsSound) : after.IsSound where
  topLevel := by
    rw [root, restates.sameTree.children_eq]
    exact sound.topLevel
  distinct := restates.hasDistinctIds sound.distinct
  rootInitial := by
    obtain ⟨words, isInitial, lead⟩ := sound.rootInitial
    exact ⟨words, (restates.initialWords_eq rootId).trans isInitial, restates.leadTo lead⟩
  nodes := fun id proper =>
    restates.isSoundAt (sound.nodes id (restates.sameTree.isProper_iff.1 proper))

end Restates

/-! ## Nodes that declare the same -/

/-- A node refers to the same transitions, and they declare the same targets. -/
structure DeclaresTheSame (before after : Chart) (id : NodeId) : Prop where
  initial_eq : (after.node id).initial = (before.node id).initial
  historyDefault_eq : (after.node id).historyDefault = (before.node id).historyDefault
  transitions_eq : (after.node id).transitions = (before.node id).transitions
  next_eq : ∀ transition ∈ (before.node id).references,
    (after.transition transition).next = (before.transition transition).next

namespace DeclaresTheSame

variable {id : NodeId}

theorem initialWords_eq (declares : DeclaresTheSame before after id) (same : SameTree before after)
    (ids : after.effectiveId = before.effectiveId) :
    after.initialWords id = before.initialWords id := by
  rw [initialWords, initialWords, declares.initial_eq]
  cases isInitial : (before.node id).initial with
  | none =>
      rw [same.isRoot_eq, same.isComposite_eq, same.children_eq, ids]
  | some transition =>
      have member : transition ∈ (before.node id).references := by
        simp [Node.references, isInitial]
      simp only [nextWords, declares.next_eq transition member]

theorem declaredNext_eq (declares : DeclaresTheSame before after id) :
    after.declaredNext (after.node id).historyDefault =
      before.declaredNext (before.node id).historyDefault := by
  rw [declares.historyDefault_eq]
  cases isDefault : (before.node id).historyDefault with
  | none => rfl
  | some transition =>
      exact declares.next_eq transition (by simp [Node.references, isDefault])

theorem outgoingWords_eq (declares : DeclaresTheSame before after id) :
    after.outgoingWords id = before.outgoingWords id := by
  rw [outgoingWords, outgoingWords, declares.transitions_eq]
  refine List.filterMap_congr fun transition member => ?_
  rw [declares.next_eq transition (List.mem_append_right _ member)]

end DeclaresTheSame

/-- Charts restate each other if all nodes but one declare the same, and that one has the same
words. -/
theorem Restates.of_declaresTheSame_except (node : NodeId) (same : SameTree before after)
    (ids : after.effectiveId = before.effectiveId)
    (others : ∀ id, id ≠ node → DeclaresTheSame before after id)
    (initial : after.initialWords node = before.initialWords node)
    (default : (before.node node).isHistory = true →
      after.defaultWords node = before.defaultWords node)
    (outgoing : (before.node node).isHistory = false →
      after.outgoingWords node = before.outgoingWords node) : Restates before after := by
  have initials : ∀ id, after.initialWords id = before.initialWords id := by
    intro id
    by_cases isNode : id = node
    · exact isNode ▸ initial
    · exact (others id isNode).initialWords_eq same ids
  refine ⟨same, ids, initials, fun id isHistory => ?_, fun id notHistory => ?_⟩
  · by_cases isNode : id = node
    · subst isNode
      exact default isHistory
    · rw [defaultWords, defaultWords, (others id isNode).declaredNext_eq, same.parent_eq,
        funext initials]
  · by_cases isNode : id = node
    · subst isNode
      exact outgoing notHistory
    · exact (others id isNode).outgoingWords_eq

/-- Charts restate each other if all nodes declare the same. -/
theorem Restates.of_declaresTheSame (same : SameTree before after)
    (ids : after.effectiveId = before.effectiveId)
    (declares : ∀ id, DeclaresTheSame before after id) : Restates before after := by
  have initials : after.initialWords = before.initialWords :=
    funext fun id => (declares id).initialWords_eq same ids
  refine .of_declaresTheSame_except rootId same ids (fun id _ => declares id)
    (congrFun initials rootId) (fun _ => ?_) (fun _ => (declares rootId).outgoingWords_eq)
  rw [defaultWords, defaultWords, (declares rootId).declaredNext_eq, same.parent_eq, initials]

end Chart

end Statechart
