import Statechart.Proofs.Microstep.Frame
import Statechart.Proofs.Microstep.Rounds

/-!
# What a microstep does within a region

What a microstep does within a region is up to what is active and recorded there,
and to the transitions that move within the region, as long as all others stay
within regions apart from it.  This holds of the leaves that remain, of the seeds
and of what each round of filling reaches.  So if every transition of a proposal
moves within a region where another proposal does the same and succeeds, the
proposal succeeds.
-/

namespace Statechart

namespace Chart

variable {chart : Chart}

/-! ## Movement within a region -/

/-- A transition of which the source and all targets lie below a region. -/
structure MovesWithin (chart : Chart) (region : NodeId) (id : TransitionId) : Prop where
  source : chart.isDescendant (chart.transition id).source region = true
  targets : ∀ target ∈ (chart.transition id).targets, chart.isDescendant target region = true

instance (chart : Chart) (region : NodeId) (id : TransitionId) :
    Decidable (chart.MovesWithin region id) :=
  decidable_of_iff (_ ∧ _)
    ⟨fun parts => ⟨parts.1, parts.2⟩, fun moves => ⟨moves.source, moves.targets⟩⟩

/-- No node lies within both of two nodes. -/
def AreApart (chart : Chart) (first second : NodeId) : Prop :=
  ∀ node, chart.isWithin node first = true → ¬ chart.isWithin node second = true

theorem AreApart.symm {first second : NodeId} (apart : chart.AreApart first second) :
    chart.AreApart second first :=
  fun node isSecond isFirst => apart node isFirst isSecond

namespace IsTree

variable (tree : chart.IsTree)
include tree

/-- Siblings are apart. -/
theorem areApart_of_siblings {parent first second : NodeId} (different : first ≠ second)
    (isFirst : chart.parent first = some parent) (isSecond : chart.parent second = some parent) :
    chart.AreApart first second :=
  fun _ within other => different (tree.eq_of_siblings_above isFirst isSecond within other)

/-- The routes of a transition turn within the region in which it moves. -/
theorem isWithin_scope_of_movesWithin {region target : NodeId} {id : TransitionId}
    (moves : chart.MovesWithin region id) (isTarget : target ∈ (chart.transition id).targets) :
    chart.isWithin (chart.route (chart.transition id).source target).scope region = true :=
  tree.routeScope_isWithin moves.source (moves.targets target isTarget)

/-- What lies in scope of transitions that move within a region lies below it. -/
theorem isDescendant_of_isInScope {region node : NodeId} {transitions : List TransitionId}
    (moves : ∀ id ∈ transitions, chart.MovesWithin region id)
    (inScope : chart.IsInScope transitions node) : chart.isDescendant node region = true := by
  obtain ⟨scope, ⟨id, isTransition, target, isTarget, rfl⟩, below⟩ := inScope
  exact tree.isDescendant_trans_isWithin below
    (tree.isWithin_scope_of_movesWithin (moves id isTransition) isTarget)

end IsTree

/-! ## Leaves within a region -/

/-- Two sets have the same leaves within a region. -/
def SameWithin (chart : Chart) (region : NodeId) (first second : NodeSet) : Prop :=
  ∀ leaf, chart.isWithin leaf region = true → (leaf ∈ first ↔ leaf ∈ second)

namespace SameWithin

variable {region : NodeId} {first second : NodeSet}

theorem symm (same : chart.SameWithin region first second) :
    chart.SameWithin region second first :=
  fun leaf within => (same leaf within).symm

variable (same : chart.SameWithin region first second) (tree : chart.IsTree)
include same tree

theorem mem_active {node : NodeId} (within : chart.isWithin node region = true)
    (isActive : node ∈ chart.active first) : node ∈ chart.active second := by
  obtain ⟨notRoot, leaf, isLeaf, leafWithin⟩ := tree.mem_active.1 isActive
  exact tree.mem_active.2 ⟨notRoot, leaf,
    (same leaf (tree.isWithin_trans leafWithin within)).1 isLeaf, leafWithin⟩

/-- The regions missing below the region are the same. -/
theorem mem_missingRegions {node : NodeId} (below : chart.isDescendant node region = true)
    (missing : node ∈ chart.missingRegions first) : node ∈ chart.missingRegions second := by
  obtain ⟨parallel, isActive, isParallel, isChild, inactive⟩ := Chart.mem_missingRegions.1 missing
  obtain ⟨parent, isParent, within⟩ := tree.isDescendant_iff_parent.1 below
  obtain rfl := Option.some.inj ((tree.parent_of_mem_children isChild).symm.trans isParent)
  exact Chart.mem_missingRegions.2 ⟨parallel, same.mem_active tree within isActive, isParallel,
    isChild, fun isOther => inactive
      (same.symm.mem_active tree (isWithin_of_isDescendant below) isOther)⟩

end SameWithin

/-! ## Siblings that a route opens -/

/-- A child of a parallel of which a route that crosses regions enters a region. -/
def IsBeside (chart : Chart) (route : Route) (node : NodeId) : Prop :=
  route.isCrossRegion chart = true ∧ ∃ region ∈ route.regionsEntered chart,
    ∃ parallel, chart.parent region = some parallel ∧ node ∈ (chart.node parallel).children

theorem mem_uncoveredSiblings {covered : NodeSet} {route : Route} {node : NodeId} :
    node ∈ chart.uncoveredSiblings covered route ↔
      (∃ region ∈ route.regionsEntered chart, ∃ parallel, chart.parent region = some parallel ∧
        node ∈ (chart.node parallel).children) ∧ ¬ node ∈ covered := by
  rw [uncoveredSiblings, List.mem_flatMap]
  constructor
  · rintro ⟨region, isEntered, member⟩
    cases isParent : chart.parent region with
    | none => simp [isParent] at member
    | some parallel =>
        rw [isParent] at member
        obtain ⟨isChild, uncovered⟩ := List.mem_filter.1 member
        exact ⟨⟨region, isEntered, parallel, isParent, isChild⟩, by simpa using uncovered⟩
  · rintro ⟨⟨region, isEntered, parallel, isParent, isChild⟩, uncovered⟩
    refine ⟨region, isEntered, ?_⟩
    rw [isParent]
    exact List.mem_filter.2 ⟨isChild, by simpa using uncovered⟩

namespace IsTree

variable (tree : chart.IsTree)
include tree

/-- Open are the targets, and what lies beside a route unless it holds a target or a
remaining leaf. -/
theorem mem_openNodes_iff {transitions : List TransitionId} {residual : NodeSet} {node : NodeId} :
    node ∈ chart.openNodes transitions residual (chart.routesOf transitions) ↔
      node ∈ chart.targetsOf transitions ∨
        (∃ id ∈ transitions, ∃ target ∈ (chart.transition id).targets,
          chart.IsBeside (chart.route (chart.transition id).source target) node) ∧
        ∀ held, held ∈ residual ∨ held ∈ chart.targetsOf transitions →
          ¬ chart.isWithin held node = true := by
  have covers : ∀ {parallel}, node ∈ (chart.node parallel).children →
      (node ∈ chart.closure (residual.toList ++ chart.targetsOf transitions) ↔
        ∃ held, (held ∈ residual ∨ held ∈ chart.targetsOf transitions) ∧
          chart.isWithin held node = true) := by
    intro parallel isChild
    have notRoot := tree.ne_root_of_parent (tree.parent_of_mem_children isChild)
    rw [tree.mem_closure, and_iff_right notRoot]
    simp only [List.mem_append, NodeSet.mem_toList]
  refine mem_foldl_appendNew.trans (or_congr_right ?_)
  simp only [List.mem_flatMap, List.mem_filter, mem_routesOf, mem_uncoveredSiblings]
  constructor
  · rintro ⟨-, ⟨⟨id, isTransition, target, isTarget, rfl⟩, crosses⟩,
      ⟨region, isEntered, parallel, isParent, isChild⟩, uncovered⟩
    rw [covers isChild] at uncovered
    exact ⟨⟨id, isTransition, target, isTarget, crosses, region, isEntered, parallel, isParent,
      isChild⟩, fun held isHeld within => uncovered ⟨held, isHeld, within⟩⟩
  · rintro ⟨⟨id, isTransition, target, isTarget, crosses, region, isEntered, parallel, isParent,
      isChild⟩, free⟩
    refine ⟨_, ⟨⟨id, isTransition, target, isTarget, rfl⟩, crosses⟩,
      ⟨region, isEntered, parallel, isParent, isChild⟩, ?_⟩
    rw [covers isChild]
    exact fun ⟨held, isHeld, within⟩ => free held isHeld within

/-- What lies beside a route lies below its scope. -/
theorem isDescendant_scope_of_isBeside {source target node : NodeId}
    (isTarget : chart.IsProper target) (beside : chart.IsBeside (chart.route source target) node) :
    chart.isDescendant node (chart.route source target).scope = true := by
  obtain ⟨-, region, isEntered, parallel, isParent, isChild⟩ := beside
  have onRoute := List.mem_reverse.1 (List.mem_filter.1 isEntered).1
  obtain ⟨-, regionBelow⟩ :=
    (tree.mem_segment (tree.target_isDescendant_routeScope source isTarget)).1 onRoute
  obtain ⟨parent, isOther, within⟩ := tree.isDescendant_iff_parent.1 regionBelow
  obtain rfl := Option.some.inj (isParent.symm.trans isOther)
  exact tree.isDescendant_trans_isWithin
    (tree.isDescendant_of_parent (tree.parent_of_mem_children isChild)) within

end IsTree

end Chart

namespace Proposal

variable {chart : Chart}

/-! ## Proposals that agree within a region -/

/-- A proposal that begins in a legal configuration, at active states and with valid
records. -/
structure IsReady (proposal : Proposal) (chart : Chart) : Prop where
  legal : chart.IsLegalConfiguration proposal.before
  active : ∀ id ∈ proposal.transitions,
    (chart.transition id).source ∈ chart.active proposal.before
  records : chart.RecordsAreValid proposal.history

/-- Every stage of a ready proposal keeps to its frame. -/
theorem IsReady.isFramed {proposal : Proposal} (ready : proposal.IsReady chart)
    (executable : chart.IsExecutable) (parallels : chart.ParallelsHaveChildren) {rounds : Nat}
    {reached : Expansion} (isStage : proposal.stage chart rounds = some reached) :
    chart.IsFramed proposal.before proposal.transitions (fun leaf => leaf ∈ reached.leaves) := by
  induction rounds generalizing reached with
  | zero =>
      exact executable.isFramed_of_seeds ready.legal ready.active ready.records parallels isStage
  | succ rounds ih =>
      obtain ⟨earlier, isEarlier, stepped⟩ := stage_succ_eq_some_iff.1 isStage
      exact executable.isFramed_of_round ready.legal ready.active ready.records (ih isEarlier)
        stepped

/-- Some leaf is there at every stage. -/
theorem IsReady.exists_mem {proposal : Proposal} (ready : proposal.IsReady chart)
    (executable : chart.IsExecutable) (parallels : chart.ParallelsHaveChildren) {rounds : Nat}
    {reached : Expansion} (isStage : proposal.stage chart rounds = some reached) :
    ∃ leaf, leaf ∈ reached.leaves := by
  have framed := ready.isFramed executable parallels isStage
  obtain ⟨leaf, wasLeaf⟩ := ready.legal.exists_mem executable.tree
  by_cases inScope : chart.IsInScope proposal.transitions leaf
  · obtain ⟨scope, isScope, -⟩ := inScope
    obtain ⟨other, isOther, -⟩ := framed.inside scope isScope
    exact ⟨other, isOther⟩
  · exact ⟨leaf, (framed.outside leaf inScope).2 wasLeaf⟩

/-- Outside a region within which all its transitions move, a proposal changes no leaf. -/
theorem IsReady.mem_iff_of_not_isWithin {proposal : Proposal} (ready : proposal.IsReady chart)
    (executable : chart.IsExecutable) (parallels : chart.ParallelsHaveChildren) {region : NodeId}
    (moves : ∀ id ∈ proposal.transitions, chart.MovesWithin region id) {rounds : Nat}
    {reached : Expansion} (isStage : proposal.stage chart rounds = some reached) {leaf : NodeId}
    (outside : ¬ chart.isWithin leaf region = true) :
    leaf ∈ reached.leaves ↔ leaf ∈ proposal.before :=
  (ready.isFramed executable parallels isStage).outside leaf fun inScope => outside
    (Chart.isWithin_of_isDescendant (executable.tree.isDescendant_of_isInScope moves inScope))

/-- A transition of one proposal that moves within a region and belongs to another proposal
as well, or moves apart from the region. -/
def Matches (chart : Chart) (region : NodeId) (other : Proposal) (id : TransitionId) : Prop :=
  (chart.MovesWithin region id ∧ id ∈ other.transitions) ∨
    ∃ elsewhere, chart.AreApart elsewhere region ∧ chart.MovesWithin elsewhere id

/-- Two proposals that do the same within a region. -/
structure AgreeWithin (chart : Chart) (region : NodeId) (first second : Proposal) : Prop where
  leaves : chart.SameWithin region first.before second.before
  records : ∀ id, (chart.node id).isHistory = true → chart.isDescendant id region = true →
    first.history.find? id = second.history.find? id
  forth : ∀ id ∈ first.transitions, Matches chart region second id
  back : ∀ id ∈ second.transitions, Matches chart region first id

namespace AgreeWithin

variable {region : NodeId} {first second : Proposal} (agree : AgreeWithin chart region first second)
include agree

theorem symm : AgreeWithin chart region second first where
  leaves := agree.leaves.symm
  records := fun id isHistory below => (agree.records id isHistory below).symm
  forth := agree.back
  back := agree.forth

variable (executable : chart.IsExecutable)
include executable

/-- A transition moves within the region if something in the region lies in its scope. -/
theorem moves_of_isDescendant {id : TransitionId} (isTransition : id ∈ first.transitions)
    {target node : NodeId} (isTarget : target ∈ (chart.transition id).targets)
    (below : chart.isDescendant node
      (chart.route (chart.transition id).source target).scope = true)
    (within : chart.isWithin node region = true) :
    chart.MovesWithin region id ∧ id ∈ second.transitions := by
  have tree := executable.tree
  refine (agree.forth id isTransition).resolve_right ?_
  rintro ⟨elsewhere, apart, moves⟩
  exact apart node (tree.isWithin_trans (Chart.isWithin_of_isDescendant below)
    (tree.isWithin_scope_of_movesWithin moves isTarget)) within

theorem isInScope {node : NodeId} (within : chart.isWithin node region = true)
    (inScope : chart.IsInScope first.transitions node) :
    chart.IsInScope second.transitions node := by
  obtain ⟨scope, ⟨id, isTransition, target, isTarget, rfl⟩, below⟩ := inScope
  have isOther := (agree.moves_of_isDescendant executable isTransition isTarget below within).2
  exact ⟨_, ⟨id, isOther, target, isTarget, rfl⟩, below⟩

theorem mem_targetsOf {target : NodeId} (within : chart.isWithin target region = true)
    (isTarget : target ∈ chart.targetsOf first.transitions) :
    target ∈ chart.targetsOf second.transitions := by
  obtain ⟨id, isTransition, member⟩ := Chart.mem_targetsOf.1 isTarget
  have below := executable.tree.target_isDescendant_routeScope (chart.transition id).source
    (executable.isNode_target id target member)
  exact Chart.mem_targetsOf.2
    ⟨id, (agree.moves_of_isDescendant executable isTransition member below within).2, member⟩

/-! ## Seeds -/

section Ready

variable (readyFirst : first.IsReady chart) (readySecond : second.IsReady chart)
include readyFirst readySecond

theorem mem_residualOf {leaf : NodeId} (within : chart.isWithin leaf region = true) :
    leaf ∈ chart.residualOf first.before first.transitions ↔
      leaf ∈ chart.residualOf second.before second.transitions := by
  rw [executable.mem_residualOf_iff readyFirst.legal readyFirst.active,
    executable.mem_residualOf_iff readySecond.legal readySecond.active]
  exact and_congr (agree.leaves leaf within) (not_congr
    ⟨agree.isInScope executable within, agree.symm.isInScope executable within⟩)

/-- The seeds start from the same nodes within the region: those that stay and the targets. -/
theorem committed {node : NodeId} (within : chart.isWithin node region = true) :
    (node ∈ chart.residualOf first.before first.transitions ∨
        node ∈ chart.targetsOf first.transitions) ↔
      (node ∈ chart.residualOf second.before second.transitions ∨
        node ∈ chart.targetsOf second.transitions) :=
  or_congr (agree.mem_residualOf executable readyFirst readySecond within)
    ⟨agree.mem_targetsOf executable within, agree.symm.mem_targetsOf executable within⟩

theorem mem_openNodes {node : NodeId} (within : chart.isWithin node region = true)
    (isOpen : node ∈ chart.openNodes first.transitions
      (chart.residualOf first.before first.transitions) (chart.routesOf first.transitions)) :
    node ∈ chart.openNodes second.transitions
      (chart.residualOf second.before second.transitions)
      (chart.routesOf second.transitions) := by
  have tree := executable.tree
  rw [tree.mem_openNodes_iff] at isOpen ⊢
  refine isOpen.imp (agree.mem_targetsOf executable within) ?_
  rintro ⟨⟨id, isTransition, target, isTarget, beside⟩, free⟩
  have below := tree.isDescendant_scope_of_isBeside (executable.isNode_target id target isTarget)
    beside
  have isOther := (agree.moves_of_isDescendant executable isTransition isTarget below within).2
  refine ⟨⟨id, isOther, target, isTarget, beside⟩, fun held isHeld heldWithin => ?_⟩
  have heldInside := tree.isWithin_trans heldWithin within
  exact free held ((agree.committed executable readyFirst readySecond heldInside).2 isHeld)
    heldWithin

theorem mem_seedsOf {node : NodeId} (within : chart.isWithin node region = true)
    (isSeed : node ∈ chart.seedsOf first.before first.transitions) :
    node ∈ chart.seedsOf second.before second.transitions := by
  have tree := executable.tree
  obtain ⟨isOpen, bottom⟩ := Chart.mem_seeds.1 isSeed
  refine Chart.mem_seeds.2 ⟨agree.mem_openNodes executable readyFirst readySecond within isOpen,
    fun pin isPin below => bottom pin ?_ below⟩
  have pinWithin := tree.isWithin_trans (Chart.isWithin_of_isDescendant below) within
  exact isPin.imp (agree.symm.mem_openNodes executable readySecond readyFirst pinWithin)
    (agree.mem_residualOf executable readyFirst readySecond pinWithin).2

end Ready

/-! ## Expansions -/

section Records

variable (records : chart.RecordsAreValid first.history)
include records

omit executable records in
theorem leadsTo_eq {node : NodeId} (below : chart.isDescendant node region = true) :
    chart.leadsTo first.history node = chart.leadsTo second.history node := by
  rw [Chart.leadsTo, Chart.leadsTo]
  cases kind : (chart.node node).kind with
  | root initial => rfl
  | state initial isFinal => rfl
  | parallel => rfl
  | history sort default =>
      have isHistory : (chart.node node).isHistory = true := by simp [Node.isHistory, kind]
      rw [agree.records node isHistory below]

omit agree in
/-- What lies below a region leads to nodes below it. -/
theorem isDescendant_of_mem_leadsTo {node next : NodeId}
    (below : chart.isDescendant node region = true)
    (leads : next ∈ chart.leadsTo first.history node) :
    chart.isDescendant next region = true :=
  executable.tree.isDescendant_trans_isWithin
    (executable.isDescendant_of_mem_leadsTo records leads)
    (executable.tree.isWithin_anchor_of_isDescendant below)

theorem enters {node leaf : NodeId} (below : chart.isDescendant node region = true)
    (enters : chart.Enters first.history node leaf) : chart.Enters second.history node leaf := by
  induction enters with
  | atomic isAtomic => exact .atomic isAtomic
  | step leads _ ih =>
      have isLed := agree.leadsTo_eq below ▸ leads
      exact .step isLed (ih (isDescendant_of_mem_leadsTo executable records below leads))

theorem ends {limit : Nat} {node : NodeId} (below : chart.isDescendant node region = true)
    (ends : chart.Ends first.history limit node) : chart.Ends second.history limit node := by
  induction limit generalizing node with
  | zero => exact absurd ends (Chart.not_ends_zero node)
  | succ limit ih =>
      rw [Chart.ends_succ_iff] at ends ⊢
      intro next leads
      rw [← agree.leadsTo_eq below] at leads
      exact ih (isDescendant_of_mem_leadsTo executable records below leads) (ends next leads)

/-- What a node in scope leads to lies in the region only if the node does. -/
theorem enters_of_isInScope {node leaf : NodeId} (inScope : chart.IsInScope first.transitions node)
    (enters : chart.Enters first.history node leaf) (within : chart.isWithin leaf region = true) :
    chart.isDescendant node region = true ∧ chart.Enters second.history node leaf := by
  have tree := executable.tree
  obtain ⟨scope, ⟨id, isTransition, target, isTarget, rfl⟩, below⟩ := inScope
  have leafBelow := executable.isDescendant_of_enters records below enters
  have moves :=
    (agree.moves_of_isDescendant executable isTransition isTarget leafBelow within).1
  have nodeBelow := tree.isDescendant_trans_isWithin below
    (tree.isWithin_scope_of_movesWithin moves isTarget)
  exact ⟨nodeBelow, agree.enters executable records nodeBelow enters⟩

end Records

/-! ## Stages -/

section Ready

variable (readyFirst : first.IsReady chart) (readySecond : second.IsReady chart)
include readyFirst

/-- What an expansion reaches within the region is reached by one of the same nodes there. -/
theorem mem_of_expandNodes {reached next others other : Expansion} {nodes more : List NodeId}
    {leaf : NodeId} (within : chart.isWithin leaf region = true)
    (kept : leaf ∈ reached.leaves → leaf ∈ others.leaves)
    (inScope : ∀ node ∈ nodes, chart.IsInScope first.transitions node)
    (listed : ∀ node ∈ nodes, chart.isDescendant node region = true → node ∈ more)
    (done : chart.expandNodes first.history reached nodes = some next)
    (otherDone : chart.expandNodes second.history others more = some other)
    (isLeaf : leaf ∈ next.leaves) : leaf ∈ other.leaves := by
  rw [Chart.mem_expandNodes done] at isLeaf
  refine (Chart.mem_expandNodes otherDone).2 (isLeaf.imp kept ?_)
  rintro ⟨node, isNode, enters⟩
  obtain ⟨below, otherEnters⟩ := agree.enters_of_isInScope executable readyFirst.records
    (inScope node isNode) enters within
  exact ⟨node, listed node isNode below, otherEnters⟩

include readySecond

theorem mem_of_firstStage {reached other : Expansion} {leaf : NodeId}
    (within : chart.isWithin leaf region = true)
    (isStage : first.stage chart 0 = some reached) (isOther : second.stage chart 0 = some other)
    (isLeaf : leaf ∈ reached.leaves) : leaf ∈ other.leaves := by
  refine agree.mem_of_expandNodes executable readyFirst within
    (agree.mem_residualOf executable readyFirst readySecond within).1
    (fun node isSeed => ?_) (fun node isSeed below => ?_) isStage isOther isLeaf
  · exact executable.isInScope_of_mem_openNodes readyFirst.legal readyFirst.active
      (Chart.mem_seeds.1 isSeed).1
  · exact agree.mem_seedsOf executable readyFirst readySecond
      (Chart.isWithin_of_isDescendant below) isSeed

variable (parallels : chart.ParallelsHaveChildren)
include parallels

omit readySecond in
theorem mem_of_nextStage {rounds : Nat} {earlier reached others other : Expansion}
    (isEarlier : first.stage chart rounds = some earlier)
    (same : chart.SameWithin region earlier.leaves others.leaves)
    (done : chart.expandNodes first.history earlier (chart.missingRegions earlier.leaves) =
      some reached)
    (otherDone : chart.expandNodes second.history others (chart.missingRegions others.leaves) =
      some other)
    {leaf : NodeId} (within : chart.isWithin leaf region = true) (isLeaf : leaf ∈ reached.leaves) :
    leaf ∈ other.leaves := by
  have framed := readyFirst.isFramed executable parallels isEarlier
  refine agree.mem_of_expandNodes executable readyFirst within (same leaf within).1
    (fun node missing => ?_) (fun node missing below => ?_) done otherDone isLeaf
  · exact executable.isInScope_of_mem_missingRegions readyFirst.legal readyFirst.active framed
      missing
  · exact same.mem_missingRegions executable.tree below missing

/-- At every stage the leaves within the region are the same. -/
theorem sameWithin_of_stage {rounds : Nat} {reached other : Expansion}
    (isStage : first.stage chart rounds = some reached)
    (isOther : second.stage chart rounds = some other) :
    chart.SameWithin region reached.leaves other.leaves := by
  induction rounds generalizing reached other with
  | zero =>
      exact fun leaf within =>
        ⟨agree.mem_of_firstStage executable readyFirst readySecond within isStage isOther,
          agree.symm.mem_of_firstStage executable readySecond readyFirst within isOther isStage⟩
  | succ rounds ih =>
      obtain ⟨earlier, isEarlier, done⟩ := stage_succ_eq_some_iff.1 isStage
      obtain ⟨others, areOthers, otherDone⟩ := stage_succ_eq_some_iff.1 isOther
      have same := ih isEarlier areOthers
      exact fun leaf within =>
        ⟨agree.mem_of_nextStage executable readyFirst parallels isEarlier same done otherDone
            within,
          agree.symm.mem_of_nextStage executable readySecond parallels areOthers same.symm
            otherDone done within⟩

end Ready

end AgreeWithin

/-! ## Proposals that are mirrored -/

/-- Every transition of a proposal moves within a region where some other proposal, of
which something holds, does the same. -/
def IsMirrored (proposal : Proposal) (chart : Chart) (Holds : Proposal → Prop) : Prop :=
  ∀ id ∈ proposal.transitions, ∃ region other, chart.MovesWithin region id ∧
    AgreeWithin chart region proposal other ∧ other.IsReady chart ∧ Holds other

namespace IsMirrored

variable {proposal : Proposal} {Holds : Proposal → Prop}

theorem imp {Also : Proposal → Prop} (mirrored : proposal.IsMirrored chart Holds)
    (implies : ∀ other, Holds other → Also other) : proposal.IsMirrored chart Also := by
  intro id isTransition
  obtain ⟨region, other, moves, agree, ready, holds⟩ := mirrored id isTransition
  exact ⟨region, other, moves, agree, ready, implies other holds⟩

variable (executable : chart.IsExecutable) (ready : proposal.IsReady chart)
include executable

/-- Of what lies in scope another proposal tells, which does the same within some region. -/
theorem exists_of_isInScope (mirrored : proposal.IsMirrored chart Holds) {node : NodeId}
    (inScope : chart.IsInScope proposal.transitions node) :
    ∃ region other, chart.isDescendant node region = true ∧
      (∃ id ∈ proposal.transitions, chart.MovesWithin region id) ∧
      AgreeWithin chart region proposal other ∧ other.IsReady chart ∧ Holds other := by
  obtain ⟨scope, ⟨id, isTransition, target, isTarget, rfl⟩, below⟩ := inScope
  obtain ⟨region, other, moves, agree, readyOther, holds⟩ := mirrored id isTransition
  have nodeBelow := executable.tree.isDescendant_trans_isWithin below
    (executable.tree.isWithin_scope_of_movesWithin moves isTarget)
  exact ⟨region, other, nodeBelow, ⟨id, isTransition, moves⟩, agree, readyOther, holds⟩

include ready
variable (parallels : chart.ParallelsHaveChildren)
include parallels

/-- If the others reach a stage, the proposal reaches it. -/
theorem exists_stage {rounds : Nat} (mirrored : proposal.IsMirrored chart
      (fun other => ∃ reached, other.stage chart rounds = some reached)) :
    ∃ reached, proposal.stage chart rounds = some reached := by
  induction rounds with
  | zero =>
      refine Chart.exists_foldlM_expandNode_iff.2 fun seed isSeed => ?_
      have inScope := executable.isInScope_of_mem_openNodes ready.legal ready.active
        (Chart.mem_seeds.1 isSeed).1
      obtain ⟨region, other, below, -, agree, readyOther, isOther⟩ :=
        mirrored.exists_of_isInScope executable inScope
      have isOtherSeed := agree.mem_seedsOf executable ready readyOther
        (Chart.isWithin_of_isDescendant below) isSeed
      exact agree.symm.ends executable readyOther.records below
        (Chart.exists_foldlM_expandNode_iff.1 isOther seed isOtherSeed)
  | succ rounds ih =>
      obtain ⟨reached, isStage⟩ := ih (mirrored.imp fun other ⟨last, isLast⟩ =>
        exists_stage_of_le isLast (Nat.le_succ rounds))
      obtain ⟨after, done⟩ : ∃ after, chart.expandNodes proposal.history reached
          (chart.missingRegions reached.leaves) = some after := by
        refine Chart.exists_foldlM_expandNode_iff.2 fun node missing => ?_
        have inScope := executable.isInScope_of_mem_missingRegions ready.legal ready.active
          (ready.isFramed executable parallels isStage) missing
        obtain ⟨region, other, below, -, agree, readyOther, last, isLast⟩ :=
          mirrored.exists_of_isInScope executable inScope
        obtain ⟨others, areOthers, otherDone⟩ := stage_succ_eq_some_iff.1 isLast
        have same := agree.sameWithin_of_stage executable ready readyOther parallels isStage
          areOthers
        exact agree.symm.ends executable readyOther.records below
          (Chart.exists_foldlM_expandNode_iff.1 ⟨last, otherDone⟩ node
            (same.mem_missingRegions executable.tree below missing))
      exact ⟨after, stage_succ_eq_some_iff.2 ⟨reached, isStage, done⟩⟩

/-- If the others settle, the proposal settles. -/
theorem exists_settles {rounds : Nat} (mirrored : proposal.IsMirrored chart
      (fun other => ∃ reached, other.Settles chart rounds reached)) :
    ∃ reached, proposal.Settles chart rounds reached := by
  obtain ⟨reached, isStage⟩ := exists_stage executable ready parallels
    (mirrored.imp fun other ⟨last, settles⟩ => ⟨last, settles.isStage⟩)
  refine ⟨reached, isStage, List.eq_nil_iff_forall_not_mem.2 fun node missing => ?_⟩
  have inScope := executable.isInScope_of_mem_missingRegions ready.legal ready.active
    (ready.isFramed executable parallels isStage) missing
  obtain ⟨region, other, below, -, agree, readyOther, last, settles⟩ :=
    mirrored.exists_of_isInScope executable inScope
  have isMissing := (agree.sameWithin_of_stage executable ready readyOther parallels isStage
    settles.isStage).mem_missingRegions executable.tree below missing
  rw [settles.noneMissing] at isMissing
  exact List.not_mem_nil isMissing

/-! ## Legality -/

/-- A node above a leaf that was active, or is the root, and below which the leaf may be active
with all others. -/
structure IsHome (chart : Chart) (before after : NodeSet) (leaf home : NodeId) : Prop where
  wasActive : home ≠ rootId → home ∈ chart.active before
  above : chart.isWithin leaf home = true
  compatible : ∀ other ∈ after, chart.isWithin other home = true → chart.AreCompatible leaf other

/-- If the others succeed, every leaf is atomic and has a home. -/
theorem exists_isHome {rounds : Nat} {reached : Expansion}
    (isStage : proposal.stage chart rounds = some reached)
    (mirrored : proposal.IsMirrored chart
      (fun other => ∃ last, other.Succeeds chart rounds last))
    {leaf : NodeId} (isLeaf : leaf ∈ reached.leaves) :
    (chart.node leaf).isAtomic = true ∧
      ∃ home, IsHome chart proposal.before reached.leaves leaf home := by
  have tree := executable.tree
  by_cases inScope : chart.IsInScope proposal.transitions leaf
  · obtain ⟨region, other, below, ⟨id, isTransition, moves⟩, agree, readyOther, last, succeeds⟩ :=
      mirrored.exists_of_isInScope executable inScope
    have same := agree.sameWithin_of_stage executable ready readyOther parallels isStage
      succeeds.isStage
    have within := Chart.isWithin_of_isDescendant below
    have isLast := (same leaf within).1 isLeaf
    have isActive : ∀ other ∈ last.leaves, other ∈ chart.active last.leaves := fun other =>
      Chart.mem_active_of_mem tree succeeds.legal.atomic
    refine ⟨succeeds.legal.atomic leaf isLast, region, fun notRoot => ?_, within,
      fun other isOther otherWithin => ?_⟩
    · exact (tree.isUpward_active proposal.before).mem_of_isDescendant _ region
        (ready.active id isTransition) moves.source notRoot
    · exact succeeds.legal.areCompatible tree (isActive leaf isLast)
        (isActive other ((same other otherWithin).1 isOther))
  · have wasLeaf := ((ready.isFramed executable parallels isStage).outside leaf inScope).1 isLeaf
    refine ⟨ready.legal.atomic leaf wasLeaf, leaf, fun _ => ?_, Chart.isWithin_refl leaf,
      fun other _ otherWithin => (tree.areCompatible_of_isWithin otherWithin).symm⟩
    exact Chart.mem_active_of_mem tree ready.legal.atomic wasLeaf

/-- If the others succeed, the leaves may be active together. -/
theorem mayBeActive {rounds : Nat} {reached : Expansion}
    (isStage : proposal.stage chart rounds = some reached)
    (mirrored : proposal.IsMirrored chart
      (fun other => ∃ last, other.Succeeds chart rounds last)) :
    chart.MayBeActive reached.leaves := by
  have tree := executable.tree
  have homes : ∀ leaf ∈ reached.leaves, (chart.node leaf).isAtomic = true ∧
      ∃ home, IsHome chart proposal.before reached.leaves leaf home := fun leaf =>
    exists_isHome executable ready parallels isStage mirrored
  have inside : ∀ leaf ∈ reached.leaves, leaf < chart.nodeCount := fun leaf isLeaf =>
    (tree.isNode_of_isState (Chart.isState_of_isAtomic (homes leaf isLeaf).1)).2
  refine ⟨fun leaf isLeaf => (homes leaf isLeaf).1, fun a b isA isB => ?_⟩
  obtain ⟨-, homeA, ofA⟩ := homes a isA
  obtain ⟨-, homeB, ofB⟩ := homes b isB
  by_cases bWithin : chart.isWithin b homeA = true
  · exact ofA.compatible b isB bWithin
  by_cases aWithin : chart.isWithin a homeB = true
  · exact (ofB.compatible a isA aWithin).symm
  -- Neither leaf lies within the home of the other one, and both homes were active.
  have activeA := ofA.wasActive fun same => bWithin (same ▸ tree.isWithin_root (inside b isB))
  have activeB := ofB.wasActive fun same => aWithin (same ▸ tree.isWithin_root (inside a isA))
  exact tree.areCompatible_lower (ready.legal.areCompatible tree activeA activeB)
    (ready.legal.isProper tree activeA).2 (ready.legal.isProper tree activeB).2
    (fun within => aWithin (tree.isWithin_trans ofA.above within))
    (fun within => bWithin (tree.isWithin_trans ofB.above within)) ofA.above ofB.above

/-- If the others succeed, the proposal succeeds. -/
theorem exists_succeeds {rounds : Nat} (mirrored : proposal.IsMirrored chart
      (fun other => ∃ reached, other.Succeeds chart rounds reached)) :
    ∃ reached, proposal.Succeeds chart rounds reached := by
  obtain ⟨reached, settles⟩ := exists_settles executable ready parallels
    (mirrored.imp fun other ⟨last, succeeds⟩ => ⟨last, succeeds.toSettles⟩)
  have nonempty := ready.exists_mem executable parallels settles.isStage
  have may := mayBeActive executable ready parallels settles.isStage mirrored
  exact ⟨reached, settles,
    may.isLegalConfiguration executable.tree nonempty settles.noneMissing⟩

end IsMirrored

end Proposal

end Statechart
