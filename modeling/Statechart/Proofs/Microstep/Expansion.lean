import Statechart.Microstep.Resolution
import Statechart.Proofs.Chart.Executable
import Statechart.Proofs.Configuration.Legality

/-!
# What an expansion reaches

Every node leads to some others: a composite state to its initial targets, a
parallel to its children, a history to what it has recorded or its default
targets.  The expansion of a node adds the atomic states at the ends of the
chains that begin there.  All of them lie within the node, or within the owner
if the node is a history.
-/

namespace Statechart

namespace Chart

variable {chart : Chart} {history : NodeMap (List NodeId)}

/-- The nodes that a node leads to when it is expanded. -/
def leadsTo (chart : Chart) (history : NodeMap (List NodeId)) (id : NodeId) : List NodeId :=
  let node := chart.node id
  match node.kind with
  | .root _ => []
  | .state initial _ =>
    if node.children.isEmpty then []
    else
      match initial with
      | some initial => (chart.transition initial).targets
      | none => node.children.take 1
  | .parallel => node.children
  | .history _ default =>
    match history.find? id, default with
    | some recorded, _ => recorded
    | none, some default => (chart.transition default).targets
    | none, none => []

/-- An expansion that has come to a node, before what the node leads to. -/
def arrive (chart : Chart) (history : NodeMap (List NodeId)) (reached : Expansion)
    (id : NodeId) : Expansion :=
  let node := chart.node id
  match node.kind with
  | .root _ | .parallel => reached
  | .state initial _ =>
    if node.children.isEmpty then { reached with leaves := reached.leaves.insert id }
    else
      match initial with
      | some _ => { reached with defaultEntries := reached.defaultEntries.insert id }
      | none => reached
  | .history _ default =>
    match history.find? id, default with
    | none, some default =>
      let owner := node.parent.getD rootId
      let taken := (reached.historyDefaults.find? owner).getD []
      { reached with
        historyDefaults := reached.historyDefaults.insert owner (taken ++ [default]) }
    | _, _ => reached

theorem expandNode_succ (limit : Nat) (reached : Expansion) (id : NodeId) :
    chart.expandNode history (limit + 1) reached id =
      (chart.leadsTo history id).foldlM (chart.expandNode history limit)
        (chart.arrive history reached id) := by
  rw [expandNode, leadsTo, arrive]
  cases (chart.node id).kind with
  | root initial => rfl
  | parallel => rfl
  | state initial isFinal =>
      dsimp only
      split
      · rfl
      · cases initial <;> rfl
  | history kind default =>
      dsimp only
      cases history.find? id with
      | some recorded => rfl
      | none => cases default <;> rfl

theorem mem_arrive {reached : Expansion} {id leaf : NodeId} :
    leaf ∈ (chart.arrive history reached id).leaves ↔
      leaf ∈ reached.leaves ∨ (chart.node id).isAtomic = true ∧ leaf = id := by
  rw [arrive]
  cases kind : (chart.node id).kind with
  | root initial => simp [Node.isAtomic, Node.isState, kind]
  | parallel => simp [Node.isAtomic, Node.isState, kind]
  | state initial isFinal =>
      cases childless : (chart.node id).children.isEmpty with
      | true => simp [Node.isAtomic, Node.isState, kind, childless, NodeSet.mem_insert, or_comm]
      | false => cases initial <;> simp [Node.isAtomic, Node.isState, kind, childless]
  | history sort default =>
      cases history.find? id <;> cases default <;> simp [Node.isAtomic, Node.isState, kind]

/-! ## Reached leaves -/

/-- An atomic state at the end of a chain that begins at a node. -/
inductive Enters (chart : Chart) (history : NodeMap (List NodeId)) : NodeId → NodeId → Prop
  | atomic {id : NodeId} (isAtomic : (chart.node id).isAtomic = true) : Enters chart history id id
  | step {id next leaf : NodeId} (leads : next ∈ chart.leadsTo history id)
      (enters : Enters chart history next leaf) : Enters chart history id leaf

theorem Enters.isAtomic {id leaf : NodeId} (enters : chart.Enters history id leaf) :
    (chart.node leaf).isAtomic = true := by
  induction enters with
  | atomic isAtomic => exact isAtomic
  | step _ _ ih => exact ih

theorem Enters.eq_of_isAtomic {node leaf : NodeId} (isAtomic : (chart.node node).isAtomic = true)
    (enters : chart.Enters history node leaf) : leaf = node := by
  cases enters with
  | atomic _ => rfl
  | step leads _ =>
      cases kind : (chart.node node).kind <;>
        simp_all [leadsTo, Node.isAtomic, Node.isState]

theorem enters_iff {id leaf : NodeId} :
    chart.Enters history id leaf ↔
      (chart.node id).isAtomic = true ∧ leaf = id ∨
        ∃ next ∈ chart.leadsTo history id, chart.Enters history next leaf := by
  constructor
  · intro enters
    cases enters with
    | atomic isAtomic => exact .inl ⟨isAtomic, rfl⟩
    | step leads enters => exact .inr ⟨_, leads, enters⟩
  · rintro (⟨isAtomic, rfl⟩ | ⟨next, leads, enters⟩)
    · exact .atomic isAtomic
    · exact .step leads enters

/-- What expanding nodes one after the other adds, if it is known for each. -/
theorem mem_foldlM_expandNode {limit : Nat}
    (each : ∀ {reached after : Expansion} {id leaf : NodeId},
      chart.expandNode history limit reached id = some after →
      (leaf ∈ after.leaves ↔ leaf ∈ reached.leaves ∨ chart.Enters history id leaf))
    {nodes : List NodeId} {reached after : Expansion} {leaf : NodeId}
    (done : nodes.foldlM (chart.expandNode history limit) reached = some after) :
    leaf ∈ after.leaves ↔
      leaf ∈ reached.leaves ∨ ∃ node ∈ nodes, chart.Enters history node leaf := by
  induction nodes generalizing reached with
  | nil =>
      cases done
      simp
  | cons node rest ih =>
      rw [List.foldlM_cons] at done
      obtain ⟨middle, first, others⟩ := Option.bind_eq_some_iff.1 done
      rw [ih others, each first, or_assoc]
      simp only [List.mem_cons, exists_eq_or_imp]

/-- An expansion adds the atomic states at the ends of all chains. -/
theorem mem_expandNode {limit : Nat} {reached after : Expansion} {id leaf : NodeId}
    (done : chart.expandNode history limit reached id = some after) :
    leaf ∈ after.leaves ↔ leaf ∈ reached.leaves ∨ chart.Enters history id leaf := by
  induction limit generalizing reached after id leaf with
  | zero => cases done
  | succ limit ih =>
      rw [expandNode_succ] at done
      rw [mem_foldlM_expandNode ih done, mem_arrive, or_assoc, ← enters_iff]

theorem mem_expandNodes {reached after : Expansion} {nodes : List NodeId} {leaf : NodeId}
    (done : chart.expandNodes history reached nodes = some after) :
    leaf ∈ after.leaves ↔
      leaf ∈ reached.leaves ∨ ∃ node ∈ nodes, chart.Enters history node leaf :=
  mem_foldlM_expandNode mem_expandNode done

theorem exists_foldlM_expandNode {limit : Nat} {nodes : List NodeId}
    (each : ∀ reached, ∀ node ∈ nodes, ∃ after,
      chart.expandNode history limit reached node = some after) (reached : Expansion) :
    ∃ after, nodes.foldlM (chart.expandNode history limit) reached = some after := by
  induction nodes generalizing reached with
  | nil => exact ⟨reached, rfl⟩
  | cons node rest ih =>
      obtain ⟨middle, first⟩ := each reached node List.mem_cons_self
      rw [List.foldlM_cons, first]
      exact ih (fun reached other member => each reached other (List.mem_cons_of_mem _ member))
        middle

/-! ## Where the leaves lie -/

/-- A node within which all leaves lie that it leads to: itself, or the owner of a
history. -/
def anchor (chart : Chart) (id : NodeId) : NodeId :=
  if (chart.node id).isHistory then (chart.parent id).getD rootId else id

/-- What histories have recorded are nodes below their owners. -/
def RecordsAreValid (chart : Chart) (history : NodeMap (List NodeId)) : Prop :=
  ∀ id, (chart.node id).isHistory = true → ∀ recorded, history.find? id = some recorded →
    recorded ≠ [] ∧ ∀ node ∈ recorded, ∀ owner, chart.parent id = some owner →
      chart.isDescendant node owner = true

/-- Nodes whose anchors part in a parallel. -/
def AnchorsPart (chart : Chart) (first second : NodeId) : Prop :=
  ∃ meeting, chart.PartAt meeting (chart.anchor first) (chart.anchor second) ∧
    (chart.node meeting).isParallel = true

/-- Of different nodes that a node leads to the anchors part in a parallel. -/
def LeadsApart (chart : Chart) (history : NodeMap (List NodeId)) : Prop :=
  ∀ id, ∀ first ∈ chart.leadsTo history id, ∀ second ∈ chart.leadsTo history id,
    first ≠ second → chart.AnchorsPart first second

/-- No history among some targets stands beside a target below its owner. -/
def HistoriesStandAlone (chart : Chart) (targets : List NodeId) : Prop :=
  ∀ target ∈ targets, (chart.node target).isHistory = true →
    ∀ other ∈ targets, other ≠ target → ¬ chart.isDescendant other (chart.anchor target) = true

/-- In no initial or default transition a history stands beside a target below its
owner. -/
def EntriesStandAlone (chart : Chart) : Prop :=
  ∀ id transition,
    (chart.node id).initial = some transition ∨ (chart.node id).historyDefault = some transition →
      chart.HistoriesStandAlone (chart.transition transition).targets

/-- Every parallel has a child. -/
def ParallelsHaveChildren (chart : Chart) : Prop :=
  ∀ id, (chart.node id).isParallel = true → (chart.node id).children ≠ []

/-- Different legal targets part in a parallel. -/
theorem IsTree.exists_partAt_of_areLegalTargets (tree : chart.IsTree) {targets : List NodeId}
    (inside : ∀ target ∈ targets, target < chart.nodeCount)
    (legal : chart.areLegalTargets targets = true) {first second : NodeId}
    (isFirst : first ∈ targets) (isSecond : second ∈ targets) (different : first ≠ second) :
    ∃ meeting, chart.PartAt meeting first second ∧ (chart.node meeting).isParallel = true := by
  let Part (a b : NodeId) : Prop :=
    a ≠ b → ∃ meeting, chart.PartAt meeting a b ∧ (chart.node meeting).isParallel = true
  have parts : targets.Pairwise Part := by
    refine (areLegalTargets_iff.1 legal).imp_of_mem fun isA isB orthogonal _ => ?_
    exact (tree.areOrthogonal_iff (inside _ isA) (inside _ isB)).1 orthogonal
  have flipped : targets.Pairwise (flip Part) := by
    refine parts.imp fun part different => ?_
    obtain ⟨meeting, parted, isParallel⟩ := part different.symm
    exact ⟨meeting, parted.symm, isParallel⟩
  exact List.Pairwise.forall_of_forall_of_flip (fun _ _ same => absurd rfl same) parts flipped
    isFirst isSecond different

theorem IsTree.isWithin_anchor_of_isDescendant (tree : chart.IsTree) {node ancestor : NodeId}
    (below : chart.isDescendant node ancestor = true) :
    chart.isWithin (chart.anchor node) ancestor = true := by
  obtain ⟨parent, isParent, within⟩ := tree.isDescendant_iff_parent.1 below
  rw [anchor]
  split
  · rw [isParent]
    exact within
  · exact isWithin_of_isDescendant below

theorem anchor_of_mem_children (tree : chart.IsTree) {node parent : NodeId}
    (isChild : node ∈ (chart.node parent).children) : chart.anchor node = node := by
  rw [anchor, ((tree.mem_children parent node).1 isChild).2]
  rfl

theorem isHistory_of_isState {node : NodeId} (isState : (chart.node node).isState = true) :
    (chart.node node).isHistory = false := by
  cases kind : (chart.node node).kind <;> simp_all [Node.isState, Node.isHistory]

theorem anchor_of_isState {node : NodeId} (isState : (chart.node node).isState = true) :
    chart.anchor node = node := by
  rw [anchor, isHistory_of_isState isState]
  rfl

theorem anchor_of_isAtomic {node : NodeId} (isAtomic : (chart.node node).isAtomic = true) :
    chart.anchor node = node :=
  anchor_of_isState (Bool.and_eq_true_iff.1 isAtomic).1

theorem IsTree.anchor_lt_nodeCount (tree : chart.IsTree) {node : NodeId}
    (isProper : chart.IsProper node) : chart.anchor node < chart.nodeCount := by
  obtain ⟨parent, isParent, -⟩ := tree.exists_parent node isProper.1 isProper.2
  rw [anchor]
  split
  · rw [isParent]
    exact tree.parent_lt_nodeCount isParent
  · exact isProper.2

theorem IsTree.isWithin_anchor (tree : chart.IsTree) {node : NodeId}
    (isProper : chart.IsProper node) : chart.isWithin node (chart.anchor node) = true := by
  obtain ⟨parent, isParent, -⟩ := tree.exists_parent node isProper.1 isProper.2
  rw [anchor]
  split
  · rw [isParent]
    exact isWithin_of_isDescendant (tree.isDescendant_of_parent isParent)
  · exact isWithin_refl node

/-- The anchor of a node lies wherever the node lies, short of a history itself. -/
theorem IsTree.isWithin_anchor_of_isWithin (tree : chart.IsTree) {node above : NodeId}
    (within : chart.isWithin node above = true)
    (apart : (chart.node node).isHistory = true → node ≠ above) :
    chart.isWithin (chart.anchor node) above = true := by
  rcases isWithin_iff.1 within with same | below
  · have regular : (chart.node node).isHistory = false := by
      cases isHistory : (chart.node node).isHistory with
      | true => exact absurd same (apart isHistory)
      | false => rfl
    rwa [anchor, regular]
  · exact tree.isWithin_anchor_of_isDescendant below

/-- Legal targets have anchors that part in a parallel if histories stand alone. -/
theorem IsTree.exists_partAt_anchor (tree : chart.IsTree) {targets : List NodeId}
    (inside : ∀ target ∈ targets, target < chart.nodeCount)
    (legal : chart.areLegalTargets targets = true) (alone : chart.HistoriesStandAlone targets)
    {first second : NodeId} (isFirst : first ∈ targets) (isSecond : second ∈ targets)
    (different : first ≠ second) :
    chart.AnchorsPart first second := by
  obtain ⟨meeting, parted, isParallel⟩ :=
    tree.exists_partAt_of_areLegalTargets inside legal isFirst isSecond different
  have ⟨left, right, apart, isLeft, isRight, leftward, rightward⟩ := parted
  -- A history on its own side of the meeting would be owned by the meeting.
  have ownerIsMeeting : ∀ {node : NodeId}, (chart.node node).isHistory = true →
      chart.parent node = some meeting → chart.anchor node = meeting := by
    intro node isHistory isParent
    rw [anchor, isHistory, if_pos rfl, isParent, Option.getD_some]
  refine ⟨meeting, ⟨left, right, apart, isLeft, isRight, ?_, ?_⟩, isParallel⟩
  · refine tree.isWithin_anchor_of_isWithin leftward fun isHistory same => ?_
    have beside := alone first isFirst isHistory second isSecond (Ne.symm different)
    rw [ownerIsMeeting isHistory (same ▸ isLeft)] at beside
    exact beside (tree.isDescendant_of_partAt parted.symm)
  · refine tree.isWithin_anchor_of_isWithin rightward fun isHistory same => ?_
    have beside := alone second isSecond isHistory first isFirst different
    rw [ownerIsMeeting isHistory (same ▸ isRight)] at beside
    exact beside (tree.isDescendant_of_partAt parted)

theorem anchor_of_noHistories (noHistories : ∀ id, (chart.node id).isHistory = false)
    (id : NodeId) : chart.anchor id = id := by
  rw [anchor, noHistories]
  rfl

theorem recordsAreValid_of_noHistories (noHistories : ∀ id, (chart.node id).isHistory = false)
    (history : NodeMap (List NodeId)) : chart.RecordsAreValid history :=
  fun id isHistory => absurd (noHistories id ▸ isHistory) Bool.false_ne_true

namespace IsExecutable

variable (executable : chart.IsExecutable)
include executable

section Records

variable (records : chart.RecordsAreValid history)
include records

/-- A node leads to nodes below its anchor. -/
theorem isDescendant_of_mem_leadsTo {id next : NodeId} (leads : next ∈ chart.leadsTo history id) :
    chart.isDescendant next (chart.anchor id) = true := by
  have tree := executable.tree
  rw [leadsTo] at leads
  cases kind : (chart.node id).kind with
  | root initial => simp [kind] at leads
  | state initial isFinal =>
      have notHistory : (chart.node id).isHistory = false := by simp [Node.isHistory, kind]
      rw [anchor, notHistory]
      cases childless : (chart.node id).children.isEmpty with
      | true => simp [kind, childless] at leads
      | false =>
          have isComposite : (chart.node id).isComposite = true := by
            simp [Node.isComposite, Node.isState, kind, childless]
          obtain ⟨transition, isInitial, -, below, -⟩ := executable.initial id isComposite
          have same : initial = some transition := by simpa [Node.initial, kind] using isInitial
          simp only [kind, childless, same] at leads
          exact below next leads
  | parallel =>
      have notHistory : (chart.node id).isHistory = false := by simp [Node.isHistory, kind]
      rw [anchor, notHistory]
      simp only [kind] at leads
      exact tree.isDescendant_of_parent (tree.parent_of_mem_children leads)
  | history sort default =>
      have isHistory : (chart.node id).isHistory = true := by simp [Node.isHistory, kind]
      have isProper : id ≠ rootId ∧ id < chart.nodeCount := by
        constructor
        · rintro rfl
          have isRoot := tree.isRoot_root
          simp [Node.isRoot, kind] at isRoot
        · apply Nat.lt_of_not_le
          intro outside
          rw [node_of_le outside] at kind
          cases kind
      obtain ⟨owner, isOwner, -⟩ := tree.exists_parent id isProper.1 isProper.2
      rw [anchor, isHistory, if_pos rfl, isOwner, Option.getD_some]
      cases found : history.find? id with
      | some recorded =>
          simp only [kind, found] at leads
          exact (records id isHistory recorded found).2 next leads owner isOwner
      | none =>
          obtain ⟨transition, isDefault, -, suits, -⟩ := executable.default id isHistory
          have same : default = some transition := by
            simpa [Node.historyDefault, kind] using isDefault
          simp only [kind, found, same] at leads
          have suit := suits next leads sort default kind
          rw [isOwner, Option.getD_some] at suit
          cases sort with
          | shallow => exact tree.isDescendant_of_parent (by simpa [suitsHistory] using suit)
          | deep => simpa [suitsHistory] using suit

theorem isWithin_anchor_of_enters {id leaf : NodeId} (enters : chart.Enters history id leaf) :
    chart.isWithin leaf (chart.anchor id) = true := by
  induction enters with
  | @atomic id isAtomic =>
      rw [anchor_of_isAtomic isAtomic]
      exact isWithin_refl id
  | step leads _ ih =>
      exact executable.tree.isWithin_trans ih (executable.tree.isWithin_anchor_of_isDescendant
        (executable.isDescendant_of_mem_leadsTo records leads))

/-- The leaves that a node leads to may be active together. -/
theorem areCompatible_of_enters (apart : chart.LeadsApart history) {id a b : NodeId}
    (entersA : chart.Enters history id a) (entersB : chart.Enters history id b) :
    chart.AreCompatible a b := by
  have tree := executable.tree
  induction entersA with
  | atomic isAtomic =>
      rw [entersB.eq_of_isAtomic isAtomic]
      exact tree.areCompatible_of_isWithin (isWithin_refl _)
  | @step id first a leadsFirst entersFirst ih =>
      rcases enters_iff.1 entersB with ⟨isAtomic, rfl⟩ | ⟨second, leadsSecond, entersSecond⟩
      · rw [(Enters.step leadsFirst entersFirst).eq_of_isAtomic isAtomic]
        exact tree.areCompatible_of_isWithin (isWithin_refl _)
      · by_cases same : first = second
        · exact ih (same ▸ entersSecond)
        · obtain ⟨meeting, parted, isParallel⟩ :=
            apart id first leadsFirst second leadsSecond same
          exact tree.areCompatible_of_partAt (tree.partAt_lower parted
            (executable.isWithin_anchor_of_enters records entersFirst)
            (executable.isWithin_anchor_of_enters records entersSecond)) isParallel

/-- A node leads on unless it is atomic. -/
theorem leadsTo_ne_nil (parallels : chart.ParallelsHaveChildren) {id : NodeId}
    (isProper : chart.IsProper id) (notAtomic : ¬ (chart.node id).isAtomic = true) :
    chart.leadsTo history id ≠ [] := by
  rw [leadsTo]
  cases kind : (chart.node id).kind with
  | root initial =>
      have notRoot := executable.tree.not_isRoot id isProper.1 isProper.2
      simp [Node.isRoot, kind] at notRoot
  | state initial isFinal =>
      have isState : (chart.node id).isState = true := by simp [Node.isState, kind]
      have hasChildren : (chart.node id).children.isEmpty = false := by
        simpa [Node.isAtomic, isState] using notAtomic
      have isComposite : (chart.node id).isComposite = true := by
        simp [Node.isComposite, isState, hasChildren]
      obtain ⟨transition, isInitial, notEmpty, -⟩ := executable.initial id isComposite
      have same : initial = some transition := by simpa [Node.initial, kind] using isInitial
      simpa [kind, hasChildren, same] using notEmpty
  | parallel => exact parallels id (by simp [Node.isParallel, kind])
  | history sort default =>
      have isHistory : (chart.node id).isHistory = true := by simp [Node.isHistory, kind]
      obtain ⟨transition, isDefault, notEmpty, -⟩ := executable.default id isHistory
      have same : default = some transition := by
        simpa [Node.historyDefault, kind] using isDefault
      cases found : history.find? id with
      | some recorded => simpa [found] using (records id isHistory recorded found).1
      | none => simpa [found, same] using notEmpty

/-- An expansion that comes to an end has reached a leaf. -/
theorem exists_enters (parallels : chart.ParallelsHaveChildren) {limit : Nat}
    {reached after : Expansion} {id : NodeId} (isProper : chart.IsProper id)
    (done : chart.expandNode history limit reached id = some after) :
    ∃ leaf, chart.Enters history id leaf := by
  induction limit generalizing reached after id with
  | zero => cases done
  | succ limit ih =>
      by_cases isAtomic : (chart.node id).isAtomic = true
      · exact ⟨id, .atomic isAtomic⟩
      · obtain ⟨next, rest, isNext⟩ := List.exists_cons_of_ne_nil
          (executable.leadsTo_ne_nil records parallels isProper isAtomic)
        have leads : next ∈ chart.leadsTo history id := isNext ▸ List.mem_cons_self
        rw [expandNode_succ, isNext, List.foldlM_cons] at done
        obtain ⟨middle, first, -⟩ := Option.bind_eq_some_iff.1 done
        obtain ⟨leaf, enters⟩ := ih (executable.tree.isProper_of_isDescendant
          (executable.isDescendant_of_mem_leadsTo records leads)) first
        exact ⟨leaf, .step leads enters⟩

end Records

/-- All that a node leads to parts in parallels, if no history stands beside a target below
its owner and this is so of all that is recorded. -/
theorem leadsApart_of_entriesStandAlone (alone : chart.EntriesStandAlone)
    (records : ∀ id, (chart.node id).isHistory = true → ∀ recorded,
      history.find? id = some recorded → ∀ first ∈ recorded, ∀ second ∈ recorded,
        first ≠ second → chart.AnchorsPart first second) : chart.LeadsApart history := by
  have tree := executable.tree
  intro id first leadsFirst second leadsSecond different
  have ofTransition : ∀ {transition : TransitionId},
      (chart.node id).initial = some transition ∨
        (chart.node id).historyDefault = some transition →
      chart.areLegalTargets (chart.transition transition).targets = true →
      first ∈ (chart.transition transition).targets →
      second ∈ (chart.transition transition).targets → chart.AnchorsPart first second :=
    fun isEntry legal isFirst isSecond => tree.exists_partAt_anchor
      (fun target member => (executable.isNode_target _ target member).2) legal
      (alone id _ isEntry) isFirst isSecond different
  rw [leadsTo] at leadsFirst leadsSecond
  cases kind : (chart.node id).kind with
  | root initial => simp [kind] at leadsFirst
  | parallel =>
      simp only [kind] at leadsFirst leadsSecond
      rw [AnchorsPart, anchor_of_mem_children tree leadsFirst,
        anchor_of_mem_children tree leadsSecond]
      exact ⟨id, ⟨first, second, different, tree.parent_of_mem_children leadsFirst,
        tree.parent_of_mem_children leadsSecond, isWithin_refl first, isWithin_refl second⟩,
        by simp [Node.isParallel, kind]⟩
  | state initial isFinal =>
      cases childless : (chart.node id).children.isEmpty with
      | true => simp [kind, childless] at leadsFirst
      | false =>
          have isComposite : (chart.node id).isComposite = true := by
            simp [Node.isComposite, Node.isState, kind, childless]
          obtain ⟨transition, isInitial, -, -, legal⟩ := executable.initial id isComposite
          have same : initial = some transition := by simpa [Node.initial, kind] using isInitial
          simp only [kind, childless, same] at leadsFirst leadsSecond
          exact ofTransition (.inl isInitial) legal leadsFirst leadsSecond
  | history sort default =>
      have isHistory : (chart.node id).isHistory = true := by simp [Node.isHistory, kind]
      cases found : history.find? id with
      | some recorded =>
          simp only [kind, found] at leadsFirst leadsSecond
          exact records id isHistory recorded found first leadsFirst second leadsSecond different
      | none =>
          obtain ⟨transition, isDefault, -, -, legal⟩ := executable.default id isHistory
          have same : default = some transition := by
            simpa [Node.historyDefault, kind] using isDefault
          simp only [kind, found, same] at leadsFirst leadsSecond
          exact ofTransition (.inr isDefault) legal leadsFirst leadsSecond

/-! ## Charts without histories -/

section NoHistories

variable (noHistories : ∀ id, (chart.node id).isHistory = false)
include noHistories

theorem isDescendant_of_leads {id next : NodeId} (leads : next ∈ chart.leadsTo history id) :
    chart.isDescendant next id = true := by
  have below := executable.isDescendant_of_mem_leadsTo
    (recordsAreValid_of_noHistories noHistories history) leads
  rwa [anchor_of_noHistories noHistories] at below

theorem leadsApart_of_noHistories (history : NodeMap (List NodeId)) :
    chart.LeadsApart history := by
  refine executable.leadsApart_of_entriesStandAlone (fun id transition _ target _ isHistory => ?_)
    (fun id isHistory => ?_)
  · exact absurd ((noHistories target).symm.trans isHistory) Bool.false_ne_true
  · exact absurd ((noHistories id).symm.trans isHistory) Bool.false_ne_true

/-- Expansions come to an end: each step leads to a node of a higher number. -/
theorem exists_expandNode {limit : Nat} {id : NodeId} (reached : Expansion)
    (inside : id < chart.nodeCount) (enough : chart.nodeCount ≤ id + limit) :
    ∃ after, chart.expandNode history limit reached id = some after := by
  induction limit generalizing id reached with
  | zero => exact absurd enough (Nat.not_le_of_lt inside)
  | succ limit ih =>
      rw [expandNode_succ]
      refine exists_foldlM_expandNode (fun reached next leads => ?_) _
      have below := executable.isDescendant_of_leads noHistories leads
      have higher := executable.tree.lt_of_isDescendant below
      refine ih reached (executable.tree.lt_nodeCount_of_isDescendant below)
        (Nat.le_trans enough ?_)
      rw [← Nat.succ_add_eq_add_succ]
      exact Nat.add_le_add_right higher limit

end NoHistories

end IsExecutable

end Chart

end Statechart
