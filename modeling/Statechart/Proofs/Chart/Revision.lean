import Statechart.Proofs.Chart.Naming
import Statechart.Proofs.Chart.Preparation
import Statechart.Proofs.Chart.WellFormed

/-!
# What validation keeps of a chart

Every step of validation, whether it succeeds or not, leaves a chart that
restates the one it started from, and none makes it count as validated.  Adding
the transitions that were left out fails only for charts that are not
well-formed, and makes the others ready for linking.
-/

namespace Statechart

/-- What a node declares, without its ids, its actions and its place in the document. -/
def Node.declaration (node : Node) : Node :=
  { node with clientId := "", id := "", onEntry := [], onExit := [], order := 0 }

namespace Chart

variable {chart before after : Chart}

/-! ## Charts with the same declarations -/

/-- Two charts declare the same: they differ in ids, actions, places and targets only. -/
structure Reproduces (before after : Chart) : Prop where
  nodeCount_eq : after.nodeCount = before.nodeCount
  declaration_eq : ∀ id, (after.node id).declaration = (before.node id).declaration
  name_eq : after.name = before.name
  transitionCount_eq : after.transitionCount = before.transitionCount
  source_eq : ∀ id, (after.transition id).source = (before.transition id).source
  next_eq : ∀ id, (after.transition id).next = (before.transition id).next

namespace Reproduces

theorem refl (chart : Chart) : Reproduces chart chart :=
  ⟨rfl, fun _ => rfl, rfl, rfl, fun _ => rfl, fun _ => rfl⟩

theorem trans {first second third : Chart} (left : Reproduces first second)
    (right : Reproduces second third) : Reproduces first third where
  nodeCount_eq := right.nodeCount_eq.trans left.nodeCount_eq
  declaration_eq := fun id => (right.declaration_eq id).trans (left.declaration_eq id)
  name_eq := right.name_eq.trans left.name_eq
  transitionCount_eq := right.transitionCount_eq.trans left.transitionCount_eq
  source_eq := fun id => (right.source_eq id).trans (left.source_eq id)
  next_eq := fun id => (right.next_eq id).trans (left.next_eq id)

theorem of_renames (renames : Renames before after) : Reproduces before after where
  nodeCount_eq := renames.nodeCount_eq
  declaration_eq := renames.part_eq Node.declaration fun _ => rfl
  name_eq := renames.name_eq
  transitionCount_eq := congrArg Array.size renames.transitions_eq
  source_eq := fun id => by rw [transition, transition, renames.transitions_eq]
  next_eq := fun id => by rw [transition, transition, renames.transitions_eq]

theorem of_eq (nodes : after.nodes = before.nodes) (transitions : after.transitions =
    before.transitions) (name : after.name = before.name) : Reproduces before after where
  nodeCount_eq := congrArg Array.size nodes
  declaration_eq := fun id => congrArg Node.declaration (node_congr nodes id)
  name_eq := name
  transitionCount_eq := congrArg Array.size transitions
  source_eq := fun id => by rw [transition, transition, transitions]
  next_eq := fun id => by rw [transition, transition, transitions]

theorem modifyNode {change : Node → Node}
    (keeps : ∀ node, (change node).declaration = node.declaration) (id : NodeId) :
    Reproduces chart (chart.modifyNode id change) where
  nodeCount_eq := nodeCount_modifyNode id change
  declaration_eq := node_modifyNode_keeps Node.declaration keeps id
  name_eq := rfl
  transitionCount_eq := rfl
  source_eq := fun _ => rfl
  next_eq := fun _ => rfl

theorem modifyTransition {change : Transition → Transition}
    (keepsSource : ∀ transition, (change transition).source = transition.source)
    (keepsNext : ∀ transition, (change transition).next = transition.next) (id : TransitionId) :
    Reproduces chart (chart.modifyTransition id change) where
  nodeCount_eq := rfl
  declaration_eq := fun _ => rfl
  name_eq := rfl
  transitionCount_eq := transitionCount_modifyTransition id change
  source_eq := transition_modifyTransition_keeps Transition.source keepsSource id
  next_eq := transition_modifyTransition_keeps Transition.next keepsNext id

/-- What is told by the declaration of a node is as it was. -/
theorem part_eq {Part : Type} (reproduces : Reproduces before after) (part : Node → Part)
    (told : ∀ node, part node.declaration = part node) (id : NodeId) :
    part (after.node id) = part (before.node id) := by
  rw [← told, reproduces.declaration_eq, told]

theorem sameTree (reproduces : Reproduces before after) : SameTree before after :=
  ⟨reproduces.nodeCount_eq, reproduces.part_eq Node.position fun _ => rfl⟩

theorem isGrown (reproduces : Reproduces before after) (grown : before.IsGrown) :
    after.IsGrown where
  planted := reproduces.sameTree.isPlanted grown.planted
  owned := by
    have references := reproduces.part_eq Node.references fun _ => rfl
    constructor
    · intro id transition member
      rw [references] at member
      rw [IsTransitionOf, reproduces.transitionCount_eq, reproduces.source_eq]
      exact grown.owned.own id transition member
    · exact fun id => references id ▸ grown.owned.nodup id

theorem declaresTheSame (reproduces : Reproduces before after) (id : NodeId) :
    DeclaresTheSame before after id where
  initial_eq := reproduces.part_eq Node.initial (fun _ => rfl) id
  historyDefault_eq := reproduces.part_eq Node.historyDefault (fun _ => rfl) id
  transitions_eq := reproduces.part_eq Node.transitions (fun _ => rfl) id
  next_eq := fun transition _ => reproduces.next_eq transition

theorem restates (reproduces : Reproduces before after) : Restates before after :=
  .of_declaresTheSame reproduces.sameTree
    (reproduces.sameTree.effectiveId_eq reproduces.name_eq
      (reproduces.part_eq Node.declaredId fun _ => rfl))
    reproduces.declaresTheSame

end Reproduces

/-! ## Revisions -/

/-- What a step of validation keeps: the chart restates what it was, and does not come to count
as validated. -/
structure Revises (before after : Chart) : Prop where
  restates : Restates before after
  invocation_eq : ∀ id, (after.node id).invocation = (before.node id).invocation
  isGrown : after.IsGrown
  isValidated : after.isValidated = true → before.isValidated = true

namespace Revises

theorem refl (grown : chart.IsGrown) : Revises chart chart :=
  ⟨.refl chart, fun _ => rfl, grown, id⟩

theorem trans {first second third : Chart} (left : Revises first second)
    (right : Revises second third) : Revises first third where
  restates := left.restates.trans right.restates
  invocation_eq := fun id => (right.invocation_eq id).trans (left.invocation_eq id)
  isGrown := right.isGrown
  isValidated := fun validated => left.isValidated (right.isValidated validated)

theorem of_reproduces (reproduces : Reproduces before after) (grown : before.IsGrown)
    (isValidated : after.isValidated = true → before.isValidated = true) :
    Revises before after where
  restates := reproduces.restates
  invocation_eq := reproduces.part_eq Node.invocation fun _ => rfl
  isGrown := reproduces.isGrown grown
  isValidated := isValidated

theorem hasSoundInvocation_iff (revises : Revises before after) {id : NodeId} :
    after.HasSoundInvocation id ↔ before.HasSoundInvocation id := by
  rw [HasSoundInvocation, HasSoundInvocation, revises.invocation_eq]

theorem isSound_iff (revises : Revises before after) : after.IsSound ↔ before.IsSound :=
  ⟨revises.restates.symm.isSound, revises.restates.isSound⟩

theorem isWellFormed_iff (revises : Revises before after) :
    after.IsWellFormed ↔ before.IsWellFormed := by
  have same := revises.restates.sameTree
  have invocations : (∀ id, after.IsProper id → (after.node id).isHistory = false →
      after.HasSoundInvocation id) ↔ ∀ id, before.IsProper id →
        (before.node id).isHistory = false → before.HasSoundInvocation id := by
    simp only [same.isProper_iff, same.isHistory_eq, revises.hasSoundInvocation_iff]
  exact ⟨fun formed => ⟨revises.isSound_iff.1 formed.sound, invocations.1 formed.invocations⟩,
    fun formed => ⟨revises.isSound_iff.2 formed.sound, invocations.2 formed.invocations⟩⟩

end Revises

/-- A chart is rejected for good reason, and the rejected chart restates it. -/
structure Refutes (chart : Chart) (rejection : Rejection) : Prop where
  isFlawed : ¬ chart.IsWellFormed
  revises : Revises chart rejection.chart

/-- What refutes a revision refutes the chart as it was. -/
theorem Refutes.of_revises {rejection : Rejection} (refutes : Refutes after rejection)
    (revises : Revises before after) : Refutes before rejection :=
  ⟨fun formed => refutes.isFlawed (revises.isWellFormed_iff.2 formed),
    revises.trans refutes.revises⟩

/-- Naming makes all nodes bear their ids, or the chart is flawed. -/
theorem assignIds_decides (grown : chart.IsGrown) :
    Yields (fun after => Revises chart after ∧ after.BearsIds) (Refutes chart)
      chart.assignIds := by
  have revises : ∀ {after : Chart}, Renames chart after → Revises chart after := fun renames =>
    .of_reproduces (.of_renames renames) grown fun validated => renames.isValidated_eq ▸ validated
  refine (assignIds_yields grown.planted).imp ?_ ?_
  · exact fun after named => ⟨revises named.1, named.2⟩
  · exact fun rejection misnamed =>
      ⟨fun wellFormed => misnamed.1 wellFormed.sound.distinct, revises misnamed.2⟩

/-! ## Transitions that are added -/

section Attach

variable {refer : TransitionId → Node → Node} {added : Transition}

theorem DeclaresTheSame.attach (owned : chart.IsOwned) {id : NodeId}
    (different : id ≠ added.source) : DeclaresTheSame chart (chart.attach refer added) id := by
  have same : (chart.attach refer added).node id = chart.node id := node_attach_of_ne different
  refine ⟨congrArg _ same, congrArg _ same, congrArg _ same, fun transition member => ?_⟩
  exact congrArg Transition.next (transition_attach_of_lt (owned.own id transition member).1)

theorem nextWords_attach :
    (chart.attach refer added).nextWords chart.transitionCount =
      Text.words (added.next.getD "") := by
  rw [nextWords, transition_attach_self]

theorem outgoingWords_attach (owned : chart.IsOwned)
    (keeps : ∀ transition node, (refer transition node).transitions = node.transitions)
    (id : NodeId) : (chart.attach refer added).outgoingWords id = chart.outgoingWords id := by
  rw [outgoingWords, outgoingWords, node_attach_keeps Node.transitions keeps]
  refine List.filterMap_congr fun transition member => ?_
  rw [transition_attach_of_lt (owned.own id transition (List.mem_append_right _ member)).1]

/-- Adding a transition is a revision if its source keeps its words. -/
theorem Revises.attach (grown : chart.IsGrown) (reference : IsReference refer)
    (keeps : ∀ transition node, (refer transition node).transitions = node.transitions)
    (initial : (chart.attach refer added).initialWords added.source =
      chart.initialWords added.source)
    (default : (chart.node added.source).isHistory = true →
      (chart.attach refer added).defaultWords added.source = chart.defaultWords added.source) :
    Revises chart (chart.attach refer added) := by
  have ids : (chart.attach refer added).effectiveId = chart.effectiveId :=
    reference.sameTree.effectiveId_eq rfl
      (node_attach_keeps Node.declaredId reference.declaredId_eq)
  have others : ∀ id, id ≠ added.source → DeclaresTheSame chart (chart.attach refer added) id :=
    fun id different => .attach grown.owned different
  refine ⟨.of_declaresTheSame_except added.source reference.sameTree ids others initial default
      fun _ => outgoingWords_attach grown.owned keeps _,
    node_attach_keeps Node.invocation reference.invocation_eq, reference.isGrown grown, ?_⟩
  exact fun validated => absurd validated Bool.false_ne_true

end Attach

/-! ## Missing initial transitions -/

/-- Declaring what the words of the initial targets are anyway is a revision. -/
theorem Revises.setInitial (grown : chart.IsGrown) {node : NodeId} {next : String}
    (inside : node < chart.nodeCount)
    (mayHave : ((chart.node node).isRoot || (chart.node node).isState) = true)
    (words : chart.initialWords node = some (Text.words next)) :
    Revises chart (chart.setInitial node next []) := by
  have isInitial := initial_setInitial inside mayHave next []
  rw [setInitial_eq] at isInitial ⊢
  refine .attach grown isReference_referInitial transitions_referInitial ?_ ?_
  · rw [show (newTransition node none none (some next) []).source = node from rfl, words,
      initialWords, isInitial]
    exact congrArg some (nextWords_attach.trans (words_nonblank (some next)))
  · intro isHistory
    rw [show (newTransition node none none (some next) []).source = node from rfl] at isHistory
    cases kind : (chart.node node).kind <;>
      simp_all [Node.isRoot, Node.isState, Node.isHistory]

theorem Revises.addMissingInitial (grown : chart.IsGrown) (bears : chart.BearsIds)
    (node : NodeId) : Revises chart (chart.addMissingInitial node) := by
  unfold Chart.addMissingInitial
  dsimp only
  split
  · next lacking =>
      split
      · next first rest isFirst =>
          obtain ⟨mayHave, lacks⟩ := Bool.and_eq_true_iff.1 lacking
          have isParent := grown.planted.parent_of_mem_children
            (show first ∈ (chart.node node).children from isFirst ▸ List.mem_cons_self)
          have proper : chart.IsProper first :=
            ⟨grown.planted.ne_root_of_parent isParent, lt_nodeCount_of_parent isParent⟩
          refine .setInitial grown (grown.planted.parent_lt_nodeCount isParent)
            (Node.isRoot_or_isState mayHave) ?_
          rw [initialWords, Option.isNone_iff_eq_none.1 lacks, mayHave, isFirst,
            bears.idOf_eq first proper]
          rfl
      · exact .refl grown
  · exact .refl grown

theorem BearsIds.prepares (bears : before.BearsIds) (prepares : Prepares before after)
    (restates : Restates before after) : after.BearsIds where
  idOf_eq := by
    intro id proper
    rw [prepares.idOf_eq, restates.effectiveId_eq]
    exact bears.idOf_eq id (restates.sameTree.isProper_iff.1 proper)
  finds := bears.finds.congr prepares.sameTree prepares.ids_eq prepares.idOf_eq

theorem Revises.foldl_addMissingInitial (grown : chart.IsGrown) (bears : chart.BearsIds)
    (nodes : List NodeId) : Revises chart (nodes.foldl Chart.addMissingInitial chart) := by
  induction nodes generalizing chart with
  | nil => exact .refl grown
  | cons node rest ih =>
      have revises := Revises.addMissingInitial grown bears node
      exact revises.trans (ih revises.isGrown
        (bears.prepares (.addMissingInitial chart node) revises.restates))

/-! ## Missing default transitions -/

theorem initialWords_of_isHistory {id : NodeId} (isHistory : (chart.node id).isHistory = true) :
    chart.initialWords id = none := by
  unfold initialWords
  cases kind : (chart.node id).kind <;>
    simp_all [Node.isHistory, Node.initial, Node.isRoot, Node.isComposite, Node.isState]

/-- A history has a default transition whose words are its default words. -/
def HasDefault (chart : Chart) (history : NodeId) : Prop :=
  (chart.node history).isHistory = true → ∃ transition,
    (chart.node history).historyDefault = some transition ∧
      chart.nextWords transition = chart.defaultWords history

/-- The words of a default transition that declares what the owner says, or nothing where the
owner says nothing, are the default words. -/
theorem defaultWords_eq_nextWords {history : NodeId} {transition : TransitionId}
    (isDefault : (chart.node history).historyDefault = some transition)
    (fallback : (chart.transition transition).next = none →
      ((chart.parent history).bind chart.initialWords).getD [] = []) :
    chart.defaultWords history = chart.nextWords transition := by
  rw [defaultWords, nextWords, isDefault]
  cases isNext : (chart.transition transition).next with
  | none =>
      simp only [declaredNext, Option.bind_some, isNext]
      exact fallback isNext
  | some next => simp only [declaredNext, Option.bind_some, isNext, Option.getD_some]

/-- Where nothing is missing, a node without an initial transition has no initial words. -/
theorem HasInitial.initialWords_eq_none {id : NodeId} (has : chart.HasInitial id)
    (noInitial : (chart.node id).initial = none) : chart.initialWords id = none := by
  unfold initialWords
  rw [noInitial]
  dsimp only
  split
  · next mayHave =>
      cases children : (chart.node id).children with
      | nil => rfl
      | cons first rest =>
          have given := has (Node.isRoot_or_isState mayHave)
            (children ▸ List.cons_ne_nil first rest)
          rw [noInitial] at given
          cases given
  · rfl

/-- Without declared initial targets the owner of a history says nothing. -/
theorem getD_initialWords_eq_nil {owner : NodeId} (has : chart.HasInitial owner)
    (undeclared : chart.declaredNext (chart.node owner).initial = none) :
    (chart.initialWords owner).getD [] = [] := by
  cases isInitial : (chart.node owner).initial with
  | none => rw [has.initialWords_eq_none isInitial, Option.getD_none]
  | some transition =>
      rw [isInitial] at undeclared
      have noNext : (chart.transition transition).next = none := undeclared
      simp only [initialWords, isInitial, nextWords, noNext, Option.getD_some, Option.getD_none]
      rfl

theorem not_leadTo_nil {Suits : NodeId → Prop} : ¬ chart.LeadTo [] Suits := by
  rintro ⟨targets, notEmpty, are, -⟩
  exact notEmpty (List.map_eq_nil_iff.1 are.effectiveId_eq)

theorem initialWords_of_declaredNext {owner : NodeId} {next : String}
    (declared : chart.declaredNext (chart.node owner).initial = some next) :
    chart.initialWords owner = some (Text.words next) := by
  obtain ⟨transition, isInitial, isNext⟩ := Option.bind_eq_some_iff.1 declared
  simp only [initialWords, isInitial, nextWords, isNext, Option.getD_some]

theorem isHistory_of_historyDefault {node : Node} {transition : TransitionId}
    (isDefault : node.historyDefault = some transition) : node.isHistory = true := by
  cases kind : node.kind <;> simp_all [Node.historyDefault, Node.isHistory]

/-- Declaring in the default transition what its words are anyway is a revision. -/
theorem Revises.declareNext (grown : chart.IsGrown) {history : NodeId} {transition : TransitionId}
    {next : String} (isDefault : (chart.node history).historyDefault = some transition)
    (words : chart.defaultWords history = Text.words next) :
    let after := chart.modifyTransition transition (fun given => { given with next := some next })
    Revises chart after ∧ (∀ id, id ≠ history → DeclaresTheSame chart after id) ∧
      after.HasDefault history := by
  intro after
  have isOwn : chart.IsTransitionOf history transition :=
    grown.owned.own history transition (by simp [Node.references, isDefault])
  have isHistory := isHistory_of_historyDefault isDefault
  have isNext : (after.transition transition).next = some next :=
    congrArg Transition.next (transition_modifyTransition_self isOwn.1 _)
  have others : ∀ id, id ≠ history → DeclaresTheSame chart after id := by
    refine fun id different => ⟨rfl, rfl, rfl, fun other member => ?_⟩
    have apart : other ≠ transition := by
      rintro rfl
      exact different ((grown.owned.own id other member).2.symm.trans isOwn.2)
    exact congrArg Transition.next (transition_modifyTransition_of_ne apart _)
  have afterWords : after.defaultWords history = Text.words next := by
    simp only [defaultWords, show (after.node history).historyDefault = some transition from
      isDefault, declaredNext, Option.bind_some, isNext]
  have ids : after.effectiveId = chart.effectiveId :=
    SameTree.effectiveId_eq (.of_nodes rfl) rfl fun _ => rfl
  refine ⟨⟨.of_declaresTheSame_except history (.of_nodes rfl) ids others ?_ ?_ ?_, fun _ => rfl,
    grown.modifyTransition (fun _ => by rfl) transition, id⟩, others, fun _ => ?_⟩
  · rw [initialWords_of_isHistory isHistory,
      initialWords_of_isHistory (show (after.node history).isHistory = true from isHistory)]
  · exact fun _ => afterWords.trans words.symm
  · exact fun notHistory => absurd (isHistory.symm.trans notHistory) (Ne.symm Bool.false_ne_true)
  · refine ⟨transition, isDefault, ?_⟩
    rw [afterWords, nextWords, isNext, Option.getD_some]

theorem historyDefault_referDefault {node : Node} (isHistory : node.isHistory = true)
    (transition : TransitionId) :
    (referDefault transition node).historyDefault = some transition := by
  cases kind : node.kind <;> simp_all [referDefault, Node.historyDefault, Node.isHistory]

/-- Adding a default transition that declares what its words are anyway is a revision. -/
theorem Revises.addDefault (grown : chart.IsGrown) {history : NodeId} {next : String}
    (isHistory : (chart.node history).isHistory = true)
    (lacks : (chart.node history).historyDefault = none)
    (words : chart.defaultWords history = Text.words next) :
    let after := chart.attach referDefault (newTransition history none none (some next) [])
    Revises chart after ∧ (∀ id, id ≠ history → DeclaresTheSame chart after id) ∧
      after.HasDefault history := by
  intro after
  have inside : history < chart.nodeCount := by
    apply Nat.lt_of_not_le
    intro outside
    rw [node_of_le outside] at isHistory
    cases isHistory
  have same : SameTree chart after := isReference_referDefault.sameTree
  have others : ∀ id, id ≠ history → DeclaresTheSame chart after id :=
    fun id different => .attach grown.owned different
  have isDefault : (after.node history).historyDefault = some chart.transitionCount := by
    have isNode : after.node history = referDefault chart.transitionCount (chart.node history) :=
      node_attach_self rfl inside
    rw [isNode, historyDefault_referDefault isHistory]
  have isNext : after.nextWords chart.transitionCount = Text.words next :=
    nextWords_attach.trans (words_nonblank (some next))
  have afterWords : after.defaultWords history = Text.words next := by
    rw [← isNext]
    refine defaultWords_eq_nextWords isDefault fun noNext => ?_
    rw [nextWords, noNext] at isNext
    -- The owner is another node, so its words are the default words as they were.
    rw [defaultWords, lacks, ← isNext] at words
    rw [same.parent_eq]
    cases isParent : chart.parent history with
    | none => rfl
    | some owner =>
        have different : owner ≠ history := Nat.ne_of_lt (grown.planted.parent_lt isParent)
        have ids := same.effectiveId_eq rfl
          (node_attach_keeps Node.declaredId isReference_referDefault.declaredId_eq)
        rw [Option.bind_some, (others owner different).initialWords_eq same ids]
        rw [isParent] at words
        exact words
  refine ⟨.attach grown isReference_referDefault transitions_referDefault ?_ ?_, others, fun _ =>
    ⟨chart.transitionCount, isDefault, isNext.trans afterWords.symm⟩⟩
  · refine (initialWords_of_isHistory ?_).trans (initialWords_of_isHistory isHistory).symm
    exact (same.isHistory_eq history).trans isHistory
  · exact fun _ => afterWords.trans words.symm

/-- A default transition that was left out is added, or its history has no words at all. -/
theorem addMissingDefault_decides (grown : chart.IsGrown)
    (hasInitial : ∀ id, id < chart.nodeCount → chart.HasInitial id) (node : NodeId) :
    Yields (fun after => Revises chart after ∧ (∀ id, id ≠ node → DeclaresTheSame chart after id) ∧
        after.HasDefault node)
      (fun rejection => ¬ chart.IsSound ∧ rejection.chart = chart)
      (chart.addMissingDefault node) := by
  have unchanged : ∀ id, id ≠ node → DeclaresTheSame chart chart id :=
    fun _ _ => ⟨rfl, rfl, rfl, fun _ _ => rfl⟩
  unfold Chart.addMissingDefault
  split
  · next kind default owner isKind isParent =>
      have isHistory : (chart.node node).isHistory = true := by simp [Node.isHistory, isKind]
      have isDefault : (chart.node node).historyDefault = default := by
        simp [Node.historyDefault, isKind]
      split
      · next declared =>
          refine ⟨.refl grown, unchanged, fun _ => ?_⟩
          obtain ⟨next, isNext⟩ := Option.isSome_iff_exists.1 declared
          obtain ⟨transition, rfl, hasNext⟩ := Option.bind_eq_some_iff.1 isNext
          refine ⟨transition, isDefault,
            (defaultWords_eq_nextWords isDefault fun noNext => ?_).symm⟩
          rw [noNext] at hasNext
          cases hasNext
      · next undeclared =>
          have noWords : chart.defaultWords node = (chart.initialWords owner).getD [] := by
            rw [defaultWords, isDefault, Option.not_isSome_iff_eq_none.1 undeclared, isParent]
            rfl
          split
          · next noFallback =>
              refine ⟨fun sound => ?_, rfl⟩
              have proper : chart.IsProper node :=
                ⟨grown.planted.ne_root_of_parent isParent, lt_nodeCount_of_parent isParent⟩
              have lead := (sound.nodes node proper).default kind owner
                (by rw [isKind, NodeKind.bare]) isParent
              rw [noWords, getD_initialWords_eq_nil
                (hasInitial owner (grown.planted.parent_lt_nodeCount isParent)) noFallback] at lead
              exact not_leadTo_nil lead
          · next fallback isFallback =>
              have words : chart.defaultWords node = Text.words fallback := by
                rw [noWords, initialWords_of_declaredNext isFallback, Option.getD_some]
              split
              · exact Revises.declareNext grown isDefault words
              · rw [setHistoryDefault_eq]
                exact Revises.addDefault grown isHistory isDefault words
  · next notHistory =>
      refine ⟨.refl grown, unchanged, fun isHistory => ?_⟩
      have notRoot : (chart.node node).isRoot = false := by
        cases kind : (chart.node node).kind <;> simp_all [Node.isRoot, Node.isHistory]
      have proper := grown.planted.isProper_of_not_isRoot notRoot
      obtain ⟨owner, isParent, -⟩ := grown.planted.exists_parent node proper.1 proper.2
      cases isKind : (chart.node node).kind with
      | history kind default => exact (notHistory kind default owner isKind isParent).elim
      | _ => simp [Node.isHistory, isKind] at isHistory

/-- A chart whose transitions can be linked: nodes are found by their ids, and no initial or
default transition is missing. -/
structure IsReady (chart : Chart) : Prop where
  grown : chart.IsGrown
  bears : chart.BearsIds
  hasInitial : ∀ id, id < chart.nodeCount → chart.HasInitial id
  hasDefault : ∀ id, id < chart.nodeCount → chart.HasDefault id

theorem HasDefault.of_declaresTheSame {id : NodeId} (has : before.HasDefault id)
    (restates : Restates before after) (declares : DeclaresTheSame before after id) :
    after.HasDefault id := by
  intro isHistory
  rw [restates.sameTree.isHistory_eq] at isHistory
  obtain ⟨transition, isDefault, words⟩ := has isHistory
  refine ⟨transition, declares.historyDefault_eq.trans isDefault, ?_⟩
  rw [restates.defaultWords_eq id isHistory, ← words, nextWords, nextWords,
    declares.next_eq transition (by simp [Node.references, isDefault])]

/-- Adding what was left out makes a chart ready, or the chart is flawed for another reason than
its invocations. -/
theorem addMissingTransitions_decides (grown : chart.IsGrown) (bears : chart.BearsIds) :
    Yields (fun after => Revises chart after ∧ after.IsReady)
      (fun rejection => ¬ chart.IsSound ∧ Revises chart rejection.chart)
      chart.addMissingTransitions := by
  let completed := chart.nodeIds.foldl addMissingInitial chart
  have completes : Revises chart completed := .foldl_addMissingInitial grown bears chart.nodeIds
  obtain ⟨prepares, hasInitial⟩ := hasInitial_foldl_addMissingInitial chart
  have initials : ∀ {state : Chart}, Prepares completed state →
      ∀ id, id < state.nodeCount → state.HasInitial id := by
    intro state further id inside
    rw [further.sameTree.nodeCount_eq, prepares.sameTree.nodeCount_eq] at inside
    exact (hasInitial id inside).prepares further
  have defaults : Yields (fun after => Prepares completed after ∧ Revises chart after ∧
      ∀ id ∈ completed.nodeIds, after.HasDefault id)
      (fun rejection => ¬ chart.IsSound ∧ Revises chart rejection.chart)
      (completed.nodeIds.foldlM addMissingDefault completed) := by
    refine foldlM_yields (fun earlier after => Prepares completed after ∧ Revises chart after ∧
      ∀ id ∈ earlier, after.HasDefault id) ?_ ⟨.refl completed, completes, ?_⟩
    · rintro earlier node later state - ⟨preparing, revises, has⟩
      refine ((addMissingDefault_decides revises.isGrown (initials preparing) node).and_ok
        fun after done => Prepares.addMissingDefault done).imp ?_ ?_
      · rintro after ⟨⟨further, others, hasNode⟩, preparesFurther⟩
        refine ⟨preparing.trans preparesFurther, revises.trans further, fun id member => ?_⟩
        by_cases isNode : id = node
        · exact isNode ▸ hasNode
        · have isEarlier := (List.mem_append.1 member).resolve_right
            fun isLast => isNode (List.mem_singleton.1 isLast)
          exact (has id isEarlier).of_declaresTheSame further.restates (others id isNode)
      · rintro rejection ⟨unsound, isChart⟩
        refine ⟨fun sound => unsound (revises.isSound_iff.2 sound), ?_⟩
        rw [isChart]
        exact revises
    · exact fun _ member => absurd member List.not_mem_nil
  refine defaults.imp ?_ fun _ refutes => refutes
  rintro after ⟨further, revises, hasDefault⟩
  refine ⟨revises, revises.isGrown, bears.prepares (prepares.trans further) revises.restates,
    initials further, fun id inside => hasDefault id (List.mem_range.2 ?_)⟩
  rw [← further.sameTree.nodeCount_eq]
  exact inside

end Chart

end Statechart
