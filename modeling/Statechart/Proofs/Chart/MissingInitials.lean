import Statechart.Proofs.Chart.Addressing
import Statechart.Proofs.Chart.Diagnosis
import Statechart.Proofs.Words

/-!
# Initial transitions that are left out

The root or a composite state that leaves out its initial transition gets one to
its first child.  Validation writes it down as the id of the child, and reads the
words of this text as ids later.  So all depends on whether the id is a word: then
validation never fails for the added transition, which leads to the first child,
and otherwise it never leads there.
-/

namespace Statechart

namespace Chart

variable {chart after : Chart} {node first : NodeId}

/-- The root or a composite state without initial transition, and its first child. -/
structure LacksInitial (chart : Chart) (node first : NodeId) : Prop where
  mayHave : ((chart.node node).isRoot || (chart.node node).isComposite) = true
  lacks : (chart.node node).initial = none
  isFirst : (chart.node node).children.head? = some first

instance (chart : Chart) (node first : NodeId) : Decidable (chart.LacksInitial node first) :=
  decidable_of_iff
    (((chart.node node).isRoot || (chart.node node).isComposite) = true ∧
      (chart.node node).initial = none ∧ (chart.node node).children.head? = some first)
    ⟨fun given => ⟨given.1, given.2.1, given.2.2⟩,
      fun lacks => ⟨lacks.mayHave, lacks.lacks, lacks.isFirst⟩⟩

/-- The defects by which validation would reject a chart for the initial transition that it has
added to a node. -/
def BlamesInitial (chart : Chart) (node first : NodeId) : Defect → Prop
  | .noInitialState _ => node = rootId
  | .badInitialState name => node ≠ rootId ∧ name = chart.effectiveId node
  | .illegalTargets name next => name = chart.effectiveId node ∧ next = chart.effectiveId first
  | _ => False

/-! ## The first child -/

theorem isUnbroken_kindWord (node : Node) : Text.IsUnbroken (kindWord node) := by
  unfold kindWord
  split <;> decide

/-- An id that is made up is a word if the id of the owner has no blanks. -/
theorem isWord_madeUp (owner : String) (node : Node) (number : Nat) :
    Text.IsWord s!"{owner}:{kindWord node}{number}" ↔ Text.IsUnbroken owner := by
  constructor
  · intro isWord
    have parts := isWord.isUnbroken
    simp only [Text.isUnbroken_append] at parts
    exact parts.1.1.1
  · intro isUnbroken
    constructor
    · simp
    · simp only [Text.isUnbroken_append]
      exact ⟨⟨⟨isUnbroken, by decide⟩, isUnbroken_kindWord node⟩, Text.isUnbroken_toString number⟩

namespace LacksInitial

variable (lacks : chart.LacksInitial node first)
include lacks

theorem initialWords_eq :
    chart.initialWords node = some (Text.words (chart.effectiveId first)) := by
  rw [initialWords, lacks.lacks, lacks.mayHave, lacks.isFirst]
  rfl

theorem parent_eq (tree : chart.IsPlanted) : chart.parent first = some node :=
  tree.parent_of_mem_children (List.mem_of_mem_head? lacks.isFirst)

theorem eq_root_or_isComposite (tree : chart.IsPlanted) :
    node = rootId ∨ (chart.node node).isComposite = true := by
  refine (Bool.or_eq_true_iff.1 lacks.mayHave).imp_left fun isRoot => ?_
  by_contra notRoot
  rw [tree.not_isRoot node notRoot (tree.parent_lt_nodeCount (lacks.parent_eq tree))] at isRoot
  cases isRoot

theorem isProper_first (tree : chart.IsPlanted) : chart.IsProper first :=
  have isParent := lacks.parent_eq tree
  ⟨tree.ne_root_of_parent isParent, lt_nodeCount_of_parent isParent⟩

/-- The id of the first child is a word if it is declared as one, or made up for an owner whose
own id has no blanks. -/
theorem isWord_iff (tree : chart.IsPlanted) :
    Text.IsWord (chart.effectiveId first) ↔
      match (chart.node first).declaredId with
      | some name => Text.IsWord name
      | none => Text.IsUnbroken (chart.effectiveId node) := by
  rw [tree.effectiveId_of_parent (lacks.parent_eq tree)]
  cases (chart.node first).declaredId with
  | some name => exact Iff.rfl
  | none => exact isWord_madeUp _ _ _

end LacksInitial

/-- An id that is a word leads to the node that bears it. -/
theorem areTargets_of_isWord {id : NodeId} (proper : chart.IsProper id)
    (isWord : Text.IsWord (chart.effectiveId id)) :
    chart.AreTargets (Text.words (chart.effectiveId id)) [id] where
  proper := fun _ member => List.mem_singleton.1 member ▸ proper
  effectiveId_eq := (Text.words_eq_singleton_iff.2 isWord).symm
  legal := List.pairwise_singleton _ id

theorem leadTo_of_isWord {id : NodeId} {Suits : NodeId → Prop} (proper : chart.IsProper id)
    (isWord : Text.IsWord (chart.effectiveId id)) (suits : Suits id) :
    chart.LeadTo (Text.words (chart.effectiveId id)) Suits :=
  ⟨[id], List.cons_ne_nil _ _, areTargets_of_isWord proper isWord,
    fun _ member => List.mem_singleton.1 member ▸ suits⟩

namespace LacksInitial

variable (lacks : chart.LacksInitial node first)
include lacks

/-- No defect of the added transition is one of the chart if the id of the child is a word. -/
theorem not_blamesInitial (tree : chart.IsPlanted)
    (isWord : Text.IsWord (chart.effectiveId first)) {defect : Defect}
    (told : chart.Incriminates defect) : ¬ chart.BlamesInitial node first defect := by
  have proper := lacks.isProper_first tree
  cases defect with
  | noInitialState next =>
      rintro rfl
      exact told ⟨_, lacks.initialWords_eq, leadTo_of_isWord proper isWord trivial⟩
  | badInitialState name =>
      rintro ⟨notRoot, rfl⟩
      have isParent := lacks.parent_eq tree
      obtain ⟨words, areWords, astray⟩ :=
        told node ⟨notRoot, tree.parent_lt_nodeCount isParent⟩ rfl
      rw [lacks.initialWords_eq, Option.some.injEq] at areWords
      exact astray (areWords ▸ leadTo_of_isWord proper isWord (tree.isDescendant_of_parent isParent))
  | illegalTargets name next =>
      rintro ⟨-, rfl⟩
      exact told ⟨[first], areTargets_of_isWord proper isWord⟩
  | _ => exact not_false

/-- The targets of the added transition bear the words of the first child's id as ids. -/
theorem exists_initial (built : chart.IsBuilt) (done : chart.validate = .ok after) :
    ∃ transition, (after.node node).initial = some transition ∧
      (∀ target ∈ (after.transition transition).targets, chart.IsProper target) ∧
      (after.transition transition).targets.map chart.effectiveId =
        Text.words (chart.effectiveId first) := by
  have accepted := built.isGrown.isAccepted_of_validate done
  have restates := accepted.restates
  have ready : after.IsReady :=
    (built.isGrown.isReady_of_validate accepted.isWellFormed.sound).of_eq_ok done
  have mayHave : node = rootId ∨ (after.node node).isComposite = true := by
    rw [restates.sameTree.isComposite_eq]
    exact lacks.eq_root_or_isComposite built.tree.toIsPlanted
  obtain ⟨transition, isInitial, linked⟩ := exists_isLinked_initial built done mayHave
  obtain ⟨proper, sameIds⟩ := ready.bears.findTargets_eq_ok_iff.1 linked
  have words : chart.initialWords node = some (after.nextWords transition) := by
    rw [← restates.initialWords_eq, initialWords, isInitial]
  rw [lacks.initialWords_eq, Option.some.injEq] at words
  refine ⟨transition, isInitial, fun target member => ?_, ?_⟩
  · exact restates.sameTree.isProper_iff.1 (proper target member)
  · rw [words, ← restates.effectiveId_eq]
    exact sameIds

end LacksInitial

/-- Targets that bear one word as id are the node with this id alone. -/
theorem HasDistinctIds.eq_singleton_of_map (distinct : chart.HasDistinctIds) {id : NodeId}
    (proper : chart.IsProper id) {targets : List NodeId}
    (areProper : ∀ target ∈ targets, chart.IsProper target)
    (sameIds : targets.map chart.effectiveId = [chart.effectiveId id]) : targets = [id] := by
  obtain ⟨target, rfl, sameId⟩ := List.map_eq_singleton_iff.1 sameIds
  rw [distinct target id (areProper target (List.mem_singleton_self target)) proper sameId]

/-- Where a node leaves out its initial transition, validation never fails for the one that is
added if the id of the first child is a word.  If it succeeds, then the added transition leads to
what the words of this id name, which is the first child exactly if it is a word. -/
theorem missing_initial_leads_to_first_child {definition : Definition}
    (done : ofDefinition definition = .ok chart) (lacks : chart.LacksInitial node first) :
    (Text.IsWord (chart.effectiveId first) → ∀ rejection, chart.validate = .error rejection →
      ¬ chart.BlamesInitial node first rejection.defect) ∧
    (∀ after, chart.validate = .ok after → ∃ transition,
      (after.node node).initial = some transition ∧
      (after.transition transition).targets.map chart.effectiveId =
        Text.words (chart.effectiveId first) ∧
      ((after.transition transition).targets = [first] ↔
        Text.IsWord (chart.effectiveId first))) ∧
    (Text.IsWord (chart.effectiveId first) ↔
      match (chart.node first).declaredId with
      | some name => Text.IsWord name
      | none => Text.IsUnbroken (chart.effectiveId node)) := by
  have built := isBuilt_ofDefinition done
  have tree := built.tree.toIsPlanted
  refine ⟨fun isWord rejection rejected => ?_, fun after accepted => ?_, lacks.isWord_iff tree⟩
  · exact lacks.not_blamesInitial tree isWord (built.isGrown.incriminates_of_validate rejected)
  · obtain ⟨transition, isInitial, areProper, sameIds⟩ := lacks.exists_initial built accepted
    refine ⟨transition, isInitial, sameIds, ?_⟩
    rw [← Text.words_eq_singleton_iff, ← sameIds]
    constructor
    · exact fun isFirst => congrArg (List.map chart.effectiveId) isFirst
    · have distinct := ((validate_accepts_iff done).1 ⟨after, accepted⟩).sound.distinct
      exact distinct.eq_singleton_of_map (lacks.isProper_first tree) areProper

/-! ## Rooms of a house -/

/-- A house with a room and a hall.  Nothing is said of where one starts. -/
def house (name : String) (room : Option String) : Definition :=
  { name := some name, states := [{ states := [{ id := room }, { id := some "hall" }] }] }

/-- One starts in the room, whose id is made up of one that is made up. -/
theorem house_starts_in_room :
    ∃ chart, (ofDefinition (house "house" none) = .ok chart ∧ chart.LacksInitial 1 2) ∧
      ∃ after transition, chart.validate = .ok after ∧
        (after.node 1).initial = some transition ∧ (after.transition transition).targets = [2] := by
  have done : ofDefinition (house "house" none) = .ok (builtOrEmpty (house "house" none)) :=
    ofDefinition_eq_ok (by decide +kernel)
  obtain ⟨lacks, undeclared, ownerId, accepted⟩ :
      (builtOrEmpty (house "house" none)).LacksInitial 1 2 ∧
        ((builtOrEmpty (house "house" none)).node 2).declaredId = none ∧
        (builtOrEmpty (house "house" none)).effectiveId 1 = "house:state1" ∧
        (builtOrEmpty (house "house" none)).validate.isOk = true := by
    decide +kernel
  obtain ⟨-, leads, isWord⟩ := missing_initial_leads_to_first_child done lacks
  rw [undeclared, ownerId] at isWord
  cases outcome : (builtOrEmpty (house "house" none)).validate with
  | error rejection => simp [outcome, Except.isOk, Except.toBool] at accepted
  | ok after =>
      obtain ⟨transition, isInitial, -, isFirst⟩ := leads after outcome
      exact ⟨_, ⟨done, lacks⟩, after, transition, outcome, isInitial,
        isFirst.2 (isWord.2 (by decide +kernel))⟩

/-- Whether validation never fails for an initial transition that it adds, and whether each leads
to the first child of its node. -/
def InitialsLeadToFirst (definition : Definition) : Prop :=
  ∀ chart, ofDefinition definition = .ok chart → ∀ node first, chart.LacksInitial node first →
    (∀ rejection, chart.validate = .error rejection →
      ¬ chart.BlamesInitial node first rejection.defect) ∧
    ∀ after, chart.validate = .ok after → ∀ transition,
      (after.node node).initial = some transition → (after.transition transition).targets = [first]

/-- The defect for which validation rejects the chart of a definition. -/
def defectOf (definition : Definition) : Option Defect :=
  match (builtOrEmpty definition).validate with
  | .ok _ => none
  | .error rejection => some rejection.defect

theorem exists_of_defectOf {definition : Definition} {defect : Defect}
    (isDefect : defectOf definition = some defect) :
    ∃ rejection, (builtOrEmpty definition).validate = .error rejection ∧
      rejection.defect = defect := by
  unfold defectOf at isDefect
  split at isDefect
  · cases isDefect
  · next rejection rejected => exact ⟨rejection, rejected, Option.some.inj isDefect⟩

/-- The initial targets of a node in the chart that validation makes of a definition. -/
def initialTargetsOf (definition : Definition) (node : NodeId) : Option (List NodeId) :=
  match (builtOrEmpty definition).validate with
  | .ok after => (after.node node).initial.map fun id => (after.transition id).targets
  | .error _ => none

theorem exists_of_initialTargetsOf {definition : Definition} {node : NodeId}
    {targets : List NodeId} (areTargets : initialTargetsOf definition node = some targets) :
    ∃ after transition, (builtOrEmpty definition).validate = .ok after ∧
      (after.node node).initial = some transition ∧
      (after.transition transition).targets = targets := by
  unfold initialTargetsOf at areTargets
  split at areTargets
  · next after accepted =>
      obtain ⟨transition, isInitial, same⟩ := Option.map_eq_some_iff.1 areTargets
      exact ⟨after, transition, accepted, isInitial, same⟩
  · cases areTargets

/-- A house whose name is no word is rejected for its initial state, and one whose room has an id
that is no word for that of its only floor.  If the id is another one beside blanks, then one
starts in the hall. -/
theorem house_need_not_start_in_room :
    ¬ InitialsLeadToFirst (house "my house" none) ∧
      ¬ InitialsLeadToFirst (house "house" (some "my room")) ∧
      ¬ InitialsLeadToFirst (house "house" (some " hall")) := by
  refine ⟨fun always => ?_, fun always => ?_, fun always => ?_⟩
  · obtain ⟨built, lacks, isDefect⟩ :
        (ofDefinition (house "my house" none)).isOk = true ∧
          (builtOrEmpty (house "my house" none)).LacksInitial 0 1 ∧
          defectOf (house "my house" none) = some (.noInitialState "my house:state1") := by
      decide +kernel
    obtain ⟨rejection, rejected, named⟩ := exists_of_defectOf isDefect
    refine (always _ (ofDefinition_eq_ok built) 0 1 lacks).1 rejection rejected ?_
    rw [named]
    rfl
  · obtain ⟨built, lacks, isDefect, ownerId⟩ :
        (ofDefinition (house "house" (some "my room"))).isOk = true ∧
          (builtOrEmpty (house "house" (some "my room"))).LacksInitial 1 2 ∧
          defectOf (house "house" (some "my room")) = some (.badInitialState "house:state1") ∧
          (builtOrEmpty (house "house" (some "my room"))).effectiveId 1 = "house:state1" := by
      decide +kernel
    obtain ⟨rejection, rejected, named⟩ := exists_of_defectOf isDefect
    refine (always _ (ofDefinition_eq_ok built) 1 2 lacks).1 rejection rejected ?_
    rw [named]
    exact ⟨by decide, ownerId.symm⟩
  · obtain ⟨built, lacks, areTargets⟩ :
        (ofDefinition (house "house" (some " hall"))).isOk = true ∧
          (builtOrEmpty (house "house" (some " hall"))).LacksInitial 1 2 ∧
          initialTargetsOf (house "house" (some " hall")) 1 = some [3] := by
      decide +kernel
    obtain ⟨after, transition, accepted, isInitial, named⟩ := exists_of_initialTargetsOf areTargets
    have leads := (always _ (ofDefinition_eq_ok built) 1 2 lacks).2 after accepted transition
      isInitial
    exact absurd (named.symm.trans leads) (by decide)

end Chart

end Statechart
