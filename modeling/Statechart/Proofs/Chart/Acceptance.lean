import Statechart.Proofs.Chart.Linking
import Statechart.Proofs.Chart.OfDefinition
import Statechart.Proofs.Chart.Revision

/-!
# Validation accepts well-formed charts

Each step of linking checks one rule: it succeeds if the rule is kept and rejects
the chart otherwise.  So validation accepts a chart exactly if it is well-formed.
-/

namespace Statechart

namespace Chart

variable {chart before after : Chart}

/-! ## Targets -/

theorem BearsIds.findTargets_eq_ok_iff (bears : chart.BearsIds) {next : String}
    {targets : List NodeId} :
    chart.findTargets next = .ok targets ↔
      (∀ target ∈ targets, chart.IsProper target) ∧
        targets.map chart.effectiveId = Text.words next := by
  rw [bears.finds.findTargets_eq_ok_iff]
  refine and_congr_right fun proper => ?_
  rw [List.map_congr_left fun target member => bears.idOf_eq target (proper target member)]

/-- Targets are those that are found, if they are legal together. -/
theorem BearsIds.areTargets_iff (bears : chart.BearsIds) (tree : chart.IsPlanted) {next : String}
    {targets : List NodeId} :
    chart.AreTargets (Text.words next) targets ↔
      chart.findTargets next = .ok targets ∧ chart.areLegalTargets targets = true := by
  rw [bears.findTargets_eq_ok_iff, areLegalTargets_iff]
  constructor
  · rintro ⟨proper, sameIds, legal⟩
    refine ⟨⟨proper, sameIds⟩, legal.imp_of_mem fun isA isB meet => ?_⟩
    exact (tree.areOrthogonal_iff (proper _ isA).2 (proper _ isB).2).2 meet
  · rintro ⟨⟨proper, sameIds⟩, legal⟩
    refine ⟨proper, sameIds, legal.imp_of_mem fun isA isB orthogonal => ?_⟩
    exact (tree.areOrthogonal_iff (proper _ isA).2 (proper _ isB).2).1 orthogonal

section Find

variable {next : String} (bears : chart.BearsIds) (tree : chart.IsPlanted)
include bears tree

theorem exists_areTargets_iff {targets : List NodeId}
    (found : chart.findTargets next = .ok targets) :
    (∃ targets, chart.AreTargets (Text.words next) targets) ↔
      chart.areLegalTargets targets = true := by
  constructor
  · rintro ⟨others, are⟩
    obtain ⟨alsoFound, legal⟩ := (bears.areTargets_iff tree).1 are
    rw [found] at alsoFound
    exact Except.ok.inj alsoFound ▸ legal
  · exact fun legal => ⟨targets, (bears.areTargets_iff tree).2 ⟨found, legal⟩⟩

theorem not_exists_areTargets {missing : String}
    (unknown : chart.findTargets next = .error missing) :
    ¬ ∃ targets, chart.AreTargets (Text.words next) targets := by
  rintro ⟨targets, are⟩
  rw [((bears.areTargets_iff tree).1 are).1] at unknown
  cases unknown

theorem leadTo_iff {targets : List NodeId} (Suits : NodeId → Prop)
    (found : chart.findTargets next = .ok targets) :
    chart.LeadTo (Text.words next) Suits ↔
      targets ≠ [] ∧ (∀ target ∈ targets, Suits target) ∧ chart.areLegalTargets targets = true := by
  constructor
  · rintro ⟨others, notEmpty, are, suit⟩
    obtain ⟨alsoFound, legal⟩ := (bears.areTargets_iff tree).1 are
    rw [found] at alsoFound
    cases alsoFound
    exact ⟨notEmpty, suit, legal⟩
  · rintro ⟨notEmpty, suit, legal⟩
    exact ⟨targets, notEmpty, (bears.areTargets_iff tree).2 ⟨found, legal⟩, suit⟩

theorem not_leadTo {missing : String} {Suits : NodeId → Prop}
    (unknown : chart.findTargets next = .error missing) :
    ¬ chart.LeadTo (Text.words next) Suits := by
  rintro ⟨targets, -, are, -⟩
  exact not_exists_areTargets bears tree unknown ⟨targets, are⟩

theorem not_leadTo_of_nil {Suits : NodeId → Prop} (found : chart.findTargets next = .ok []) :
    ¬ chart.LeadTo (Text.words next) Suits :=
  fun lead => ((leadTo_iff bears tree Suits found).1 lead).1 rfl

end Find

/-! ## Steps of linking -/

theorem Links.reproduces (links : Links before after) : Reproduces before after where
  nodeCount_eq := links.sameTree.nodeCount_eq
  declaration_eq := fun id => congrArg Node.declaration (links.node_eq id)
  name_eq := links.name_eq
  transitionCount_eq := links.transitionCount_eq
  source_eq := links.source_eq
  next_eq := links.next_eq

/-- A step of linking that leaves alone whether the chart counts as validated. -/
structure Relinks (before after : Chart) : Prop extends Links before after where
  isValidated_eq : after.isValidated = before.isValidated

namespace Relinks

theorem refl (chart : Chart) : Relinks chart chart :=
  ⟨.refl chart, rfl⟩

theorem trans {first second third : Chart} (left : Relinks first second)
    (right : Relinks second third) : Relinks first third :=
  ⟨left.toLinks.trans right.toLinks, right.isValidated_eq.trans left.isValidated_eq⟩

theorem reproduces (relinks : Relinks before after) : Reproduces before after :=
  relinks.toLinks.reproduces

theorem restates (relinks : Relinks before after) : Restates before after :=
  relinks.reproduces.restates

end Relinks

theorem IsReady.reproduces (ready : before.IsReady) (reproduces : Reproduces before after)
    (ids_eq : after.ids = before.ids) (idOf_eq : ∀ id, after.idOf id = before.idOf id) :
    after.IsReady where
  grown := reproduces.isGrown ready.grown
  bears := by
    refine ⟨fun id proper => ?_, ready.bears.finds.congr reproduces.sameTree ids_eq idOf_eq⟩
    rw [idOf_eq, reproduces.restates.effectiveId_eq]
    exact ready.bears.idOf_eq id (reproduces.sameTree.isProper_iff.1 proper)
  hasInitial := by
    intro id inside mayHave parented
    rw [reproduces.nodeCount_eq] at inside
    rw [reproduces.sameTree.isRoot_eq, reproduces.sameTree.isState_eq] at mayHave
    rw [reproduces.sameTree.children_eq] at parented
    rw [(reproduces.declaresTheSame id).initial_eq]
    exact ready.hasInitial id inside mayHave parented
  hasDefault := fun id inside =>
    (ready.hasDefault id (reproduces.nodeCount_eq ▸ inside)).of_declaresTheSame
      reproduces.restates (reproduces.declaresTheSame id)

theorem IsReady.relinks (ready : before.IsReady) (relinks : Relinks before after) :
    after.IsReady :=
  ready.reproduces relinks.reproduces relinks.ids_eq
    fun id => congrArg Node.id (relinks.node_eq id)

/-- A step of linking decides a rule: it succeeds if the rule is kept, and rejects the chart
otherwise. -/
def Decides (chart : Chart) (Rule : Prop) : Except Rejection Chart → Prop :=
  Yields (fun after => Relinks chart after ∧ Rule)
    (fun rejection => Relinks chart rejection.chart ∧ ¬ Rule)

namespace Decides

variable {Rule Other : Prop} {outcome : Except Rejection Chart}

theorem accept (kept : Rule) : chart.Decides Rule (.ok chart) :=
  ⟨.refl chart, kept⟩

theorem reject (defect : Defect) (broken : ¬ Rule) :
    chart.Decides Rule (.error ⟨chart, defect⟩) :=
  ⟨.refl chart, broken⟩

theorem congr (decides : chart.Decides Rule outcome) (same : Rule ↔ Other) :
    chart.Decides Other outcome :=
  Yields.imp decides (fun _ accepted => ⟨accepted.1, same.1 accepted.2⟩)
    fun _ rejected => ⟨rejected.1, fun kept => rejected.2 (same.2 kept)⟩

theorem bind {next : Chart → Except Rejection Chart} (first : chart.Decides Rule outcome)
    (continues : ∀ middle, Relinks chart middle → middle.Decides Other (next middle)) :
    chart.Decides (Rule ∧ Other) (outcome >>= next) := by
  cases outcome with
  | error rejection => exact ⟨first.1, fun both => first.2 both.1⟩
  | ok middle =>
      refine Yields.imp (continues middle first.1) ?_ ?_
      · exact fun after accepted => ⟨first.1.trans accepted.1, first.2, accepted.2⟩
      · exact fun rejection rejected =>
          ⟨first.1.trans rejected.1, fun both => rejected.2 both.2⟩

theorem foldlM {Element : Type} {step : Chart → Element → Except Rejection Chart}
    {Keeps : Element → Prop} {elements : List Element}
    (steps : ∀ state, ∀ element ∈ elements, Relinks chart state →
      state.Decides (Keeps element) (step state element)) :
    chart.Decides (∀ element ∈ elements, Keeps element) (elements.foldlM step chart) := by
  induction elements generalizing chart with
  | nil => exact .accept fun _ member => absurd member List.not_mem_nil
  | cons element rest ih =>
      rw [List.foldlM_cons]
      have first := steps chart element List.mem_cons_self (.refl chart)
      refine (first.bind fun middle relinks => ih fun state other isRest further => ?_).congr
        List.forall_mem_cons.symm
      exact steps state other (List.mem_cons_of_mem _ isRest) (relinks.trans further)

end Decides

theorem decides_linkTargets {source : NodeId} {id : TransitionId} {next : String}
    {targets : List NodeId} (found : chart.findNext id = .ok targets) :
    chart.Decides (chart.areLegalTargets targets = true)
      (chart.linkTargets source id next targets) := by
  unfold linkTargets
  split
  · next legal => exact ⟨⟨Links.withTargets found, rfl⟩, legal⟩
  · next illegal => exact .reject _ illegal

namespace IsReady

variable (ready : chart.IsReady)
include ready

theorem decides_resolveRootInitial :
    chart.Decides (∃ words, chart.initialWords rootId = some words ∧
      chart.LeadTo words fun _ => True) chart.resolveRootInitial := by
  have tree := ready.grown.planted
  unfold resolveRootInitial
  split
  · next noInitial =>
      refine .reject _ ?_
      rw [(ready.hasInitial rootId tree.nonempty).initialWords_eq_none noInitial]
      rintro ⟨words, isInitial, -⟩
      cases isInitial
  · next transition isInitial =>
      have words : chart.initialWords rootId = some (chart.nextWords transition) := by
        rw [initialWords, show (chart.node rootId).initial = some transition from isInitial]
      have iff : (∃ words, chart.initialWords rootId = some words ∧
          chart.LeadTo words fun _ => True) ↔
            chart.LeadTo (chart.nextWords transition) fun _ => True := by
        rw [words]
        simp
      refine Decides.congr ?_ iff.symm
      dsimp only
      split
      · next unknown => exact .reject _ (not_leadTo ready.bears tree unknown)
      · next found =>
          exact .reject _ (not_leadTo_of_nil ready.bears tree found)
      · next targets notEmpty found =>
          refine (decides_linkTargets found).congr
            ((leadTo_iff ready.bears tree _ found).trans ?_).symm
          exact ⟨fun kept => kept.2.2, fun legal => ⟨notEmpty, fun _ _ => trivial, legal⟩⟩

/-- Linking to targets that all have to suit decides whether the ids lead to such targets. -/
theorem decides_linkSuitable {source : NodeId} {transition : TransitionId} {next : String}
    {targets : List NodeId} {suits : NodeId → Bool} {defect : Defect} (notEmpty : targets ≠ [])
    (found : chart.findNext transition = .ok targets) :
    chart.Decides (chart.LeadTo (chart.nextWords transition) fun target => suits target = true)
      (if targets.all suits then chart.linkTargets source transition next targets
        else .error ⟨chart, defect⟩) := by
  have iff := leadTo_iff ready.bears ready.grown.planted (fun target => suits target = true) found
  split
  · next suit =>
      refine (decides_linkTargets found).congr (iff.trans ?_).symm
      exact ⟨fun kept => kept.2.2, fun legal => ⟨notEmpty, List.all_eq_true.1 suit, legal⟩⟩
  · next notSuit =>
      exact .reject _ fun lead => notSuit (List.all_eq_true.2 (iff.1 lead).2.1)

theorem decides_resolveInitial (state : NodeId) (transition : TransitionId) :
    chart.Decides (chart.LeadTo (chart.nextWords transition)
      fun target => chart.isDescendant target state = true)
      (chart.resolveInitial state transition) := by
  have tree := ready.grown.planted
  unfold resolveInitial
  dsimp only
  split
  · next unknown => exact .reject _ (not_leadTo ready.bears tree unknown)
  · next found =>
      exact .reject _ (not_leadTo_of_nil ready.bears tree found)
  · next targets notEmpty found =>
      exact ready.decides_linkSuitable notEmpty found

theorem decides_resolveHistory {history owner : NodeId} {kind : HistoryKind}
    {default : Option TransitionId} (isKind : (chart.node history).kind = .history kind default)
    (isParent : chart.parent history = some owner) :
    chart.Decides (chart.LeadTo (chart.defaultWords history)
      fun target => chart.suitsHistory kind owner target = true)
      (chart.resolveHistory history kind default) := by
  have tree := ready.grown.planted
  obtain ⟨transition, isDefault, words⟩ := ready.hasDefault history
    (lt_nodeCount_of_parent isParent) (by simp [Node.isHistory, isKind])
  have isTransition : default = some transition := by
    simpa [Node.historyDefault, isKind] using isDefault
  rw [← words, isTransition]
  unfold resolveHistory
  dsimp only
  rw [isParent, Option.getD_some]
  split
  · next unknown => exact .reject _ (not_leadTo ready.bears tree unknown)
  · next found =>
      exact .reject _ (not_leadTo_of_nil ready.bears tree found)
  · next targets notEmpty found =>
      exact ready.decides_linkSuitable notEmpty found

theorem decides_resolveOutgoing (node : NodeId) (transition : TransitionId) :
    chart.Decides (∀ next, (chart.transition transition).next = some next →
      ∃ targets, chart.AreTargets (Text.words next) targets)
      (chart.resolveOutgoing node transition) := by
  have tree := ready.grown.planted
  unfold resolveOutgoing
  split
  · next noNext =>
      refine .accept fun next isNext => ?_
      rw [noNext] at isNext
      cases isNext
  · next next isNext =>
      have iff : (∀ other, (chart.transition transition).next = some other →
          ∃ targets, chart.AreTargets (Text.words other) targets) ↔
            ∃ targets, chart.AreTargets (Text.words next) targets := by
        rw [isNext]
        simp
      refine Decides.congr ?_ iff.symm
      split
      · next unknown => exact .reject _ (not_exists_areTargets ready.bears tree unknown)
      · next targets found =>
          refine (decides_linkTargets ?_).congr
            (exists_areTargets_iff ready.bears tree found).symm
          rw [findNext, isNext, Option.getD_some]
          exact found

end IsReady

/-! ## Contents -/

theorem invocationDefect?_eq_none_iff {state : String} {invocation : Invocation} :
    invocationDefect? state invocation = none ↔ invocation.IsComplete := by
  unfold invocationDefect?
  constructor
  · intro noDefect
    split at noDefect
    · cases noDefect
    · next notBlank =>
        refine ⟨Bool.eq_false_iff.2 notBlank, ?_⟩
        cases isSource : invocation.source <;> cases isExpression : invocation.sourceExpression <;>
          simp_all
  · rintro ⟨notBlank, source⟩
    rw [notBlank]
    cases isSource : invocation.source <;> cases isExpression : invocation.sourceExpression <;>
      simp_all

/-- A node has no invocation with a defect exactly if its invocation is complete. -/
theorem hasSoundInvocation_iff {id : NodeId} :
    chart.HasSoundInvocation id ↔
      (chart.node id).invocation.bind (invocationDefect? (chart.idOf id)) = none := by
  rw [HasSoundInvocation]
  cases (chart.node id).invocation with
  | none => simp
  | some invocation => simp [invocationDefect?_eq_none_iff]

/-- The rules for the invocation and the outgoing transitions of a node. -/
def HasSoundContent (chart : Chart) (id : NodeId) : Prop :=
  chart.HasSoundInvocation id ∧
    ∀ words ∈ chart.outgoingWords id, ∃ targets, chart.AreTargets words targets

theorem forall_mem_outgoingWords_iff {id : NodeId} {Holds : List String → Prop} :
    (∀ words ∈ chart.outgoingWords id, Holds words) ↔
      ∀ transition ∈ (chart.node id).transitions, ∀ next,
        (chart.transition transition).next = some next → Holds (Text.words next) := by
  simp only [outgoingWords, List.mem_filterMap, Option.map_eq_some_iff]
  constructor
  · exact fun hold transition member next isNext => hold _ ⟨transition, member, next, isNext, rfl⟩
  · rintro hold words ⟨transition, member, next, isNext, rfl⟩
    exact hold transition member next isNext

theorem Relinks.hasSoundInvocation_iff (relinks : Relinks before after) {id : NodeId} :
    after.HasSoundInvocation id ↔ before.HasSoundInvocation id := by
  rw [HasSoundInvocation, HasSoundInvocation, relinks.node_eq]

theorem Relinks.hasSoundContent_iff (relinks : Relinks before after) {id : NodeId} :
    after.HasSoundContent id ↔ before.HasSoundContent id := by
  rw [HasSoundContent, HasSoundContent, relinks.hasSoundInvocation_iff,
    (relinks.reproduces.declaresTheSame id).outgoingWords_eq]
  refine and_congr_right fun _ => forall₂_congr fun words _ => exists_congr fun targets => ?_
  exact relinks.restates.areTargets_iff

theorem IsReady.decides_checkContent (ready : chart.IsReady) (id : NodeId) :
    chart.Decides (chart.HasSoundContent id) (chart.checkContent id) := by
  unfold checkContent
  split
  · next defect isDefect =>
      refine .reject _ fun sound => ?_
      rw [hasSoundInvocation_iff.1 sound.1] at isDefect
      cases isDefect
  · next noDefect =>
      have each : chart.Decides (∀ transition ∈ (chart.node id).transitions, ∀ next,
          (chart.transition transition).next = some next →
            ∃ targets, chart.AreTargets (Text.words next) targets)
          ((chart.node id).transitions.foldlM (resolveOutgoing id) chart) := by
        refine .foldlM fun state transition _ relinks => ?_
        refine ((ready.relinks relinks).decides_resolveOutgoing id transition).congr ?_
        rw [relinks.next_eq]
        refine forall_congr' fun next => imp_congr_right fun _ => exists_congr fun targets => ?_
        exact relinks.restates.areTargets_iff
      refine each.congr ?_
      rw [HasSoundContent, hasSoundInvocation_iff, and_iff_right noDefect,
        forall_mem_outgoingWords_iff]

/-! ## Nodes -/

/-- All rules for one node. -/
def IsSoundNode (chart : Chart) (id : NodeId) : Prop :=
  chart.IsSoundAt id ∧ ((chart.node id).isHistory = false → chart.HasSoundInvocation id)

section Kinds

variable {id : NodeId}

theorem isSoundNode_iff_of_isState {initial : Option TransitionId} {isFinal : Bool}
    (isKind : (chart.node id).kind = .state initial isFinal) :
    chart.IsSoundNode id ↔
      ((chart.node id).children = [] → (chart.node id).histories = []) ∧
        (∀ words, chart.initialWords id = some words →
          chart.LeadTo words fun target => chart.isDescendant target id = true) ∧
        chart.HasSoundContent id := by
  have isState : (chart.node id).isState = true := by simp [Node.isState, isKind]
  have notParallel : (chart.node id).isParallel = false := by simp [Node.isParallel, isKind]
  have notHistory : (chart.node id).isHistory = false := by simp [Node.isHistory, isKind]
  constructor
  · rintro ⟨sound, invocation⟩
    exact ⟨sound.histories_eq_nil isState, sound.initial isState, invocation notHistory,
      sound.outgoing notHistory⟩
  · rintro ⟨noHistories, leads, invocation, outgoing⟩
    refine ⟨⟨fun _ => leads, ?_, fun _ => noHistories, ?_, fun _ => outgoing⟩, fun _ => invocation⟩
    · intro kind owner isBare
      rw [isHistory_of_bare isBare] at notHistory
      cases notHistory
    · rw [notParallel]
      exact fun isParallel => absurd isParallel Bool.false_ne_true

theorem isSoundNode_iff_of_isParallel (isKind : (chart.node id).kind = .parallel) :
    chart.IsSoundNode id ↔
      (∀ region ∈ (chart.node id).children, (chart.node region).isAtomic = false) ∧
        chart.HasSoundContent id := by
  have notState : (chart.node id).isState = false := by simp [Node.isState, isKind]
  have isParallel : (chart.node id).isParallel = true := by simp [Node.isParallel, isKind]
  have notHistory : (chart.node id).isHistory = false := by simp [Node.isHistory, isKind]
  constructor
  · rintro ⟨sound, invocation⟩
    exact ⟨sound.regions isParallel, invocation notHistory, sound.outgoing notHistory⟩
  · rintro ⟨regions, invocation, outgoing⟩
    refine ⟨⟨?_, ?_, ?_, fun _ => regions, fun _ => outgoing⟩, fun _ => invocation⟩
    · rw [notState]
      exact fun isState => absurd isState Bool.false_ne_true
    · intro kind owner isBare
      rw [isHistory_of_bare isBare] at notHistory
      cases notHistory
    · rw [notState]
      exact fun isState => absurd isState Bool.false_ne_true

theorem isSoundNode_iff_of_isHistory {kind : HistoryKind} {default : Option TransitionId}
    {owner : NodeId} (isKind : (chart.node id).kind = .history kind default)
    (isParent : chart.parent id = some owner) :
    chart.IsSoundNode id ↔
      chart.LeadTo (chart.defaultWords id)
        fun target => chart.suitsHistory kind owner target = true := by
  have notState : (chart.node id).isState = false := by simp [Node.isState, isKind]
  have notParallel : (chart.node id).isParallel = false := by simp [Node.isParallel, isKind]
  have isHistory : (chart.node id).isHistory = true := by simp [Node.isHistory, isKind]
  constructor
  · exact fun sound => sound.1.default kind owner (by rw [isKind, NodeKind.bare]) isParent
  · intro leads
    refine ⟨⟨?_, ?_, ?_, ?_, ?_⟩, ?_⟩
    · simp [notState]
    · intro otherKind otherOwner isBare isOther
      rw [isParent] at isOther
      rw [isKind, NodeKind.bare] at isBare
      cases isOther
      cases isBare
      exact leads
    · simp [notState]
    · simp [notParallel]
    · simp [isHistory]
    · simp [isHistory]

end Kinds

theorem Relinks.isSoundNode_iff (relinks : Relinks before after) {id : NodeId} :
    after.IsSoundNode id ↔ before.IsSoundNode id := by
  rw [IsSoundNode, IsSoundNode, relinks.hasSoundInvocation_iff, relinks.node_eq]
  exact and_congr_left fun _ => ⟨relinks.restates.symm.isSoundAt, relinks.restates.isSoundAt⟩

theorem IsReady.decides_checkNode (ready : chart.IsReady) {id : NodeId}
    (proper : chart.IsProper id) : chart.Decides (chart.IsSoundNode id) (chart.checkNode id) := by
  unfold checkNode
  dsimp only
  split
  · next initial isFinal isKind =>
      have isInitial : (chart.node id).initial = initial := by simp [Node.initial, isKind]
      refine Decides.congr ?_ (isSoundNode_iff_of_isState isKind).symm
      split
      · next lost =>
          refine .reject _ fun sound => ?_
          have lonely := sound.1
          simp_all
      · next kept =>
          have noHistories : (chart.node id).children = [] → (chart.node id).histories = [] := by
            simpa using kept
          simp only [and_iff_right noHistories]
          split
          · next transition =>
              have words : chart.initialWords id = some (chart.nextWords transition) := by
                rw [initialWords, isInitial]
              refine ((ready.decides_resolveInitial id transition).bind fun middle relinks =>
                ((ready.relinks relinks).decides_checkContent id).congr
                  relinks.hasSoundContent_iff).congr ?_
              simp [words]
          · next =>
              rw [(ready.hasInitial id proper.2).initialWords_eq_none isInitial]
              refine (ready.decides_checkContent id).congr ?_
              simp
  · next isKind =>
      refine Decides.congr ?_ (isSoundNode_iff_of_isParallel isKind).symm
      split
      · next region found =>
          refine .reject _ fun sound => ?_
          have isRegion := List.mem_of_find?_eq_some found
          have isAtomic : (chart.node region).isAtomic = true := by
            simpa using List.find?_some found
          rw [sound.1 region isRegion] at isAtomic
          cases isAtomic
      · next noneAtomic =>
          refine (ready.decides_checkContent id).congr (and_iff_right fun region member => ?_).symm
          simpa using List.find?_eq_none.1 noneAtomic region member
  · next kind default isKind =>
      obtain ⟨owner, isParent, -⟩ := ready.grown.planted.exists_parent id proper.1 proper.2
      exact (ready.decides_resolveHistory isKind isParent).congr
        (isSoundNode_iff_of_isHistory isKind isParent).symm
  · next initial isKind =>
      have notRoot := ready.grown.planted.not_isRoot id proper.1 proper.2
      simp [Node.isRoot, isKind] at notRoot

/-! ## Validation -/

/-- What is left when a chart is ready: it is well-formed if these rules are kept. -/
theorem IsReady.isWellFormed_iff (ready : chart.IsReady) (topLevel : chart.root.children ≠ []) :
    chart.IsWellFormed ↔
      (∃ words, chart.initialWords rootId = some words ∧ chart.LeadTo words fun _ => True) ∧
        ∀ id ∈ chart.nodeIds.drop 1, chart.IsSoundNode id := by
  constructor
  · rintro ⟨sound, invocations⟩
    refine ⟨sound.rootInitial, fun id member => ?_⟩
    have proper := mem_drop_nodeIds.1 member
    exact ⟨sound.nodes id proper, invocations id proper⟩
  · rintro ⟨rootInitial, nodes⟩
    have each : ∀ id, chart.IsProper id → chart.IsSoundNode id :=
      fun id proper => nodes id (mem_drop_nodeIds.2 proper)
    exact ⟨⟨topLevel, ready.bears.hasDistinctIds, rootInitial, fun id proper => (each id proper).1⟩,
      fun id proper => (each id proper).2⟩

/-- Linking decides whether a chart that is ready is well-formed. -/
theorem IsReady.decides_link (ready : chart.IsReady) (topLevel : chart.root.children ≠ []) :
    chart.Decides chart.IsWellFormed
      (chart.resolveRootInitial >>= fun rooted =>
        (rooted.nodeIds.drop 1).foldlM checkNode rooted) := by
  refine Decides.congr ?_ (ready.isWellFormed_iff topLevel).symm
  refine ready.decides_resolveRootInitial.bind fun rooted relinks => ?_
  have sameIds : rooted.nodeIds = chart.nodeIds := by
    rw [nodeIds, nodeIds, relinks.sameTree.nodeCount_eq]
  rw [sameIds]
  refine .foldlM fun state id member further => ?_
  have all := relinks.trans further
  refine ((ready.relinks all).decides_checkNode ?_).congr all.isSoundNode_iff
  exact all.sameTree.isProper_iff.2 (mem_drop_nodeIds.1 member)

/-! ## All of validation -/

theorem reproduces_numberPlace (chart : Chart) (place : Place × Nat) :
    Reproduces chart (chart.numberPlace place) ∧
      (chart.numberPlace place).isValidated = chart.isValidated := by
  obtain ⟨place, order⟩ := place
  cases place with
  | node id => exact ⟨.modifyNode (fun _ => by rfl) id, rfl⟩
  | transition id => exact ⟨.modifyTransition (fun _ => by rfl) (fun _ => by rfl) id, rfl⟩

theorem reproduces_assignOrder (chart : Chart) :
    Reproduces chart chart.assignOrder ∧ chart.assignOrder.isValidated = chart.isValidated := by
  suffices all : ∀ (places : List (Place × Nat)) (state : Chart),
      Reproduces state (places.foldl numberPlace state) ∧
        (places.foldl numberPlace state).isValidated = state.isValidated from
    all chart.places.zipIdx chart
  intro places
  induction places with
  | nil => exact fun state => ⟨.refl state, rfl⟩
  | cons place rest ih =>
      intro state
      obtain ⟨first, firstFlag⟩ := reproduces_numberPlace state place
      obtain ⟨others, othersFlag⟩ := ih (state.numberPlace place)
      exact ⟨first.trans others, othersFlag.trans firstFlag⟩

/-- A chart that validation accepts: it was well-formed, and is validated now. -/
structure IsAccepted (chart after : Chart) : Prop where
  isWellFormed : chart.IsWellFormed
  restates : Restates chart after
  isGrown : after.IsGrown
  isValidated : after.isValidated = true

theorem IsAccepted.of_revises {last : Chart} (accepted : IsAccepted after last)
    (revises : Revises before after) : IsAccepted before last :=
  ⟨revises.isWellFormed_iff.1 accepted.isWellFormed, revises.restates.trans accepted.restates,
    accepted.isGrown, accepted.isValidated⟩

/-- The last part of validation, from a chart that is ready. -/
theorem IsReady.decides_rest (ready : chart.IsReady) (topLevel : chart.root.children ≠ []) :
    Yields (IsAccepted chart) (Refutes chart) (do
      let rooted ← chart.resolveRootInitial
      let last ← (rooted.nodeIds.drop 1).foldlM checkNode rooted
      return { last with isValidated := true }) := by
  rw [← bind_assoc]
  refine Yields.bind (fun last => Relinks chart last ∧ chart.IsWellFormed) ?_ ?_
  · refine Yields.imp (ready.decides_link topLevel) (fun _ accepted => accepted) ?_
    rintro rejection ⟨relinks, flawed⟩
    exact ⟨flawed, .of_reproduces relinks.reproduces ready.grown fun validated =>
      relinks.isValidated_eq ▸ validated⟩
  · rintro last ⟨relinks, formed⟩
    have reproduces : Reproduces chart { last with isValidated := true } :=
      relinks.reproduces.trans (.of_eq rfl rfl rfl)
    exact ⟨formed, reproduces.restates, reproduces.isGrown ready.grown, rfl⟩

theorem IsReady.assignOrder (ready : chart.IsReady) :
    Revises chart chart.assignOrder ∧ chart.assignOrder.IsReady := by
  obtain ⟨reproduces, sameFlag⟩ := reproduces_assignOrder chart
  have prepares := Prepares.assignOrder chart
  exact ⟨.of_reproduces reproduces ready.grown fun validated => sameFlag ▸ validated,
    ready.reproduces reproduces prepares.ids_eq prepares.idOf_eq⟩

/-- Validation accepts a chart that is well-formed, and rejects any other. -/
theorem validate_decides (grown : chart.IsGrown) :
    Yields (IsAccepted chart) (Refutes chart) chart.validate := by
  unfold validate
  split
  · next noStates =>
      exact ⟨fun formed => formed.sound.topLevel (List.isEmpty_iff.1 noStates), .refl grown⟩
  · next hasStates =>
      have topLevel : ∀ {state : Chart}, Revises chart state → state.root.children ≠ [] := by
        intro state revises
        rw [root, revises.restates.sameTree.children_eq]
        exact fun noStates => hasStates (List.isEmpty_iff.2 noStates)
      refine (assignIds_decides grown).bind _ ?_
      rintro named ⟨revises, bears⟩
      refine Yields.bind (fun completed => Revises chart completed ∧ completed.IsReady)
        ?_ ?_
      · refine (addMissingTransitions_decides revises.isGrown bears).imp ?_ ?_
        · exact fun completed further => ⟨revises.trans further.1, further.2⟩
        · exact fun rejection refutes => Refutes.of_revises
            ⟨fun formed => refutes.1 formed.sound, refutes.2⟩ revises
      · rintro completed ⟨further, ready⟩
        obtain ⟨ordering, ordered⟩ := ready.assignOrder
        have all := further.trans ordering
        refine (ordered.decides_rest (topLevel all)).imp ?_ ?_
        · exact fun last accepted => accepted.of_revises all
        · exact fun rejection refutes => refutes.of_revises all

theorem IsGrown.isAccepted_of_validate (grown : chart.IsGrown)
    (done : chart.validate = .ok after) : IsAccepted chart after :=
  (validate_decides grown).of_eq_ok done

/-- A chart that is well-formed is accepted. -/
theorem IsGrown.exists_validate_eq_ok_iff (grown : chart.IsGrown) :
    (∃ accepted, chart.validate = .ok accepted) ↔ chart.IsWellFormed :=
  (validate_decides grown).exists_ok_iff (fun _ accepted => accepted.isWellFormed)
    fun _ refutes => refutes.isFlawed

/-- Validation accepts the chart of a definition exactly if it is well-formed. -/
theorem validate_accepts_iff {definition : Definition}
    (done : ofDefinition definition = .ok chart) :
    (∃ accepted, chart.validate = .ok accepted) ↔ chart.IsWellFormed :=
  (isBuilt_ofDefinition done).isGrown.exists_validate_eq_ok_iff

/-- The chart of a definition before validation, or an empty one if there is none. -/
def builtOrEmpty (definition : Definition) : Chart :=
  match ofDefinition definition with
  | .ok chart => chart
  | .error _ => .empty none

theorem ofDefinition_eq_ok {definition : Definition}
    (accepted : (ofDefinition definition).isOk = true) :
    ofDefinition definition = .ok (builtOrEmpty definition) := by
  rw [builtOrEmpty]
  cases isChart : ofDefinition definition with
  | error defect => simp [isChart, Except.isOk, Except.toBool] at accepted
  | ok chart => rfl

/-- Two wings that are open together, one of which can be returned to. -/
def gallery (returnTo : String) : Definition :=
  { states := [
      { id := some "gallery", isParallel := true, states := [
        { id := some "west", initial := some "bronze", states := [
            { id := some "marble" }, { states := [{ id := some "bronze" }] }]
          histories := [{ id := some "resume", kind := .shallow, target := some returnTo }] },
        { id := some "east", states := [{ id := some "oil" }] }] },
      { id := some "garden", transitions := [
        { event := some "in", target := some "resume oil" }] }] }

/-- A shallow history may lead back to a room of the wing, but not to what is inside a room. -/
theorem gallery_returns_to_rooms :
    (ofDefinition (gallery "marble") = .ok (builtOrEmpty (gallery "marble")) ∧
      (builtOrEmpty (gallery "marble")).IsWellFormed) ∧
    ofDefinition (gallery "bronze") = .ok (builtOrEmpty (gallery "bronze")) ∧
      ¬ (builtOrEmpty (gallery "bronze")).IsWellFormed := by
  have rooms : ofDefinition (gallery "marble") = .ok (builtOrEmpty (gallery "marble")) :=
    ofDefinition_eq_ok (by decide +kernel)
  have inside : ofDefinition (gallery "bronze") = .ok (builtOrEmpty (gallery "bronze")) :=
    ofDefinition_eq_ok (by decide +kernel)
  have accepted : (builtOrEmpty (gallery "marble")).validate.isOk = true := by decide +kernel
  have rejected : (builtOrEmpty (gallery "bronze")).validate.isOk = false := by decide +kernel
  refine ⟨⟨rooms, (validate_accepts_iff rooms).1 ?_⟩, inside, fun formed => ?_⟩
  · cases outcome : (builtOrEmpty (gallery "marble")).validate with
    | error rejection => simp [outcome, Except.isOk, Except.toBool] at accepted
    | ok after => exact ⟨after, rfl⟩
  · obtain ⟨after, isAccepted⟩ := (validate_accepts_iff inside).2 formed
    simp [isAccepted, Except.isOk, Except.toBool] at rejected

end Chart

end Statechart
