import Statechart.Proofs.Microstep.Agenda
import Statechart.Proofs.Microstep.Frame
import Statechart.Proofs.Microstep.Progress

/-!
# The nodes that an expansion comes to

An expansion comes to nodes one after the other: from the seeds, and then in each round from
the regions that are missing.  In the end all leaves have been reached to which these nodes
lead.  So a state that a microstep comes to is entered, and the owner of a history is entered
or stays.
-/

namespace Statechart

namespace Chart

variable {chart : Chart} {history : NodeMap (List NodeId)} {limit : Nat}

/-! ## Visits of an expansion -/

/-- The nodes that rounds of filling come to. -/
def roundVisits (chart : Chart) (history : NodeMap (List NodeId)) : Nat → Expansion → List NodeId
  | 0, _ => []
  | limit + 1, reached =>
    let visited :=
      (chart.missingRegions reached.leaves).flatMap (chart.visits history chart.nodeCount)
    visited ++ roundVisits chart history limit (visited.foldl (chart.arrive history) reached)

/-- The nodes that an expansion comes to. -/
def visitsOf (chart : Chart) (history : NodeMap (List NodeId)) (residual : NodeSet)
    (seeds : List NodeId) : List NodeId :=
  let visited := seeds.flatMap (chart.visits history chart.nodeCount)
  visited ++ chart.roundVisits history (chart.nodeCount + 1)
    (visited.foldl (chart.arrive history) { leaves := residual })

theorem eq_foldl_of_expandNodes {nodes : List NodeId} {reached after : Expansion}
    (done : chart.expandNodes history reached nodes = some after) :
    after = (nodes.flatMap (chart.visits history chart.nodeCount)).foldl (chart.arrive history)
      reached := by
  rw [expandNodes, foldlM_expandNode_eq (exists_foldlM_expandNode_iff.1 ⟨after, done⟩)] at done
  exact (Option.some.inj done).symm

theorem roundVisits_of_missingRegions_eq_nil {reached : Expansion}
    (noneMissing : chart.missingRegions reached.leaves = []) :
    chart.roundVisits history limit reached = [] := by
  induction limit with
  | zero => rfl
  | succ limit ih =>
      rw [roundVisits, noneMissing]
      exact ih

theorem eq_foldl_of_fillRegions {reached after : Expansion}
    (done : chart.fillRegions history limit reached = some after) :
    after = (chart.roundVisits history limit reached).foldl (chart.arrive history) reached := by
  induction limit generalizing reached with
  | zero => cases done
  | succ limit ih =>
      rw [fillRegions] at done
      split at done
      · next noneMissing =>
          rw [roundVisits_of_missingRegions_eq_nil noneMissing]
          exact (Option.some.inj done).symm
      · obtain ⟨next, stepped, others⟩ := Option.bind_eq_some_iff.1 done
        rw [roundVisits, List.foldl_append, ← eq_foldl_of_expandNodes stepped]
        exact ih others

/-- What an expansion yields is what its visits lead to. -/
theorem eq_foldl_of_expand {residual : NodeSet} {seeds : List NodeId} {after : Expansion}
    (done : chart.expand history residual seeds = some after) :
    after = (chart.visitsOf history residual seeds).foldl (chart.arrive history)
      { leaves := residual } := by
  obtain ⟨reached, first, others⟩ := Option.bind_eq_some_iff.1 done
  rw [visitsOf, List.foldl_append, ← eq_foldl_of_expandNodes first]
  exact eq_foldl_of_fillRegions others

/-! ## What holds of all visits -/

section Keeping

variable {Holds : NodeId → Prop}
  (leads : ∀ id next, Holds id → chart.LeadsOn history id next → Holds next)
include leads

theorem forall_mem_visits {id : NodeId} (holds : Holds id) :
    ∀ node ∈ chart.visits history limit id, Holds node := by
  induction limit generalizing id with
  | zero => exact fun _ member => absurd member List.not_mem_nil
  | succ limit ih =>
      intro node member
      rcases List.mem_cons.1 member with rfl | later
      · exact holds
      · obtain ⟨next, leadsNext, isNext⟩ := List.mem_flatMap.1 later
        exact ih (leads id next holds leadsNext) node isNext

theorem forall_mem_flatMap_visits {nodes : List NodeId} (holds : ∀ node ∈ nodes, Holds node) :
    ∀ node ∈ nodes.flatMap (chart.visits history limit), Holds node := by
  intro node member
  obtain ⟨first, isFirst, isVisit⟩ := List.mem_flatMap.1 member
  exact forall_mem_visits leads (holds first isFirst) node isVisit

variable {Invariant : Expansion → Prop} {after : Expansion}
  (rounds : ∀ reached next, Invariant reached →
    chart.expandNodes history reached (chart.missingRegions reached.leaves) = some next →
    Invariant next)
  (regions : ∀ limit reached, Invariant reached →
    chart.fillRegions history limit reached = some after →
    ∀ region ∈ chart.missingRegions reached.leaves, Holds region)
include rounds regions

theorem forall_mem_roundVisits {reached : Expansion} (holds : Invariant reached)
    (done : chart.fillRegions history limit reached = some after) :
    ∀ node ∈ chart.roundVisits history limit reached, Holds node := by
  induction limit generalizing reached with
  | zero => exact fun _ member => absurd member List.not_mem_nil
  | succ limit ih =>
      have isRegion := regions (limit + 1) reached holds done
      rw [fillRegions] at done
      split at done
      · next noneMissing =>
          rw [roundVisits_of_missingRegions_eq_nil noneMissing]
          exact fun _ member => absurd member List.not_mem_nil
      · obtain ⟨next, stepped, others⟩ := Option.bind_eq_some_iff.1 done
        intro node member
        rw [roundVisits, ← eq_foldl_of_expandNodes stepped] at member
        rcases List.mem_append.1 member with isFirst | isLater
        · exact forall_mem_flatMap_visits leads isRegion node isFirst
        · exact ih (rounds reached next holds stepped) others node isLater

/-- What passes on from node to node holds of all visits if it holds of the seeds and of all
missing regions. -/
theorem forall_mem_visitsOf {residual : NodeSet} {seeds : List NodeId}
    (isSeed : ∀ seed ∈ seeds, Holds seed)
    (isReached : ∀ reached, chart.expandNodes history { leaves := residual } seeds =
      some reached → Invariant reached)
    (done : chart.expand history residual seeds = some after) :
    ∀ node ∈ chart.visitsOf history residual seeds, Holds node := by
  obtain ⟨reached, first, others⟩ := Option.bind_eq_some_iff.1 done
  intro node member
  rw [visitsOf, ← eq_foldl_of_expandNodes first] at member
  rcases List.mem_append.1 member with ofSeed | ofRegion
  · exact forall_mem_flatMap_visits leads isSeed node ofSeed
  · exact forall_mem_roundVisits leads rounds regions (isReached reached first) others node
      ofRegion

omit rounds regions in
/-- Nothing need be known of what has been reached if all regions are of the kind. -/
theorem forall_mem_visitsOf_of_regions {residual : NodeSet} {seeds : List NodeId}
    (isSeed : ∀ seed ∈ seeds, Holds seed)
    (isRegion : ∀ limit reached, chart.fillRegions history limit reached = some after →
      ∀ region ∈ chart.missingRegions reached.leaves, Holds region)
    (done : chart.expand history residual seeds = some after) :
    ∀ node ∈ chart.visitsOf history residual seeds, Holds node := by
  have rounds : ∀ middle next : Expansion, True →
      chart.expandNodes history middle (chart.missingRegions middle.leaves) = some next → True :=
    fun _ _ known _ => known
  exact forall_mem_visitsOf leads rounds (fun limit reached _ => isRegion limit reached) isSeed
    (fun _ _ => trivial) done

end Keeping

/-- Where a region is missing, one round is followed by others. -/
theorem exists_round_of_fillRegions {reached after : Expansion} {region : NodeId}
    (isMissing : region ∈ chart.missingRegions reached.leaves)
    (filled : chart.fillRegions history limit reached = some after) :
    ∃ fewer next,
      chart.expandNodes history reached (chart.missingRegions reached.leaves) = some next ∧
        chart.fillRegions history fewer next = some after := by
  cases limit with
  | zero => cases filled
  | succ limit =>
      rw [fillRegions] at filled
      split at filled
      · next noneMissing =>
          rw [noneMissing] at isMissing
          exact absurd isMissing List.not_mem_nil
      · obtain ⟨next, stepped, others⟩ := Option.bind_eq_some_iff.1 filled
        exact ⟨limit, next, stepped, others⟩

/-- A node to which an expansion has come, with all leaves to which it leads. -/
structure IsExpanded (chart : Chart) (history : NodeMap (List NodeId)) (after : Expansion)
    (id : NodeId) : Prop where
  ends : chart.Ends history chart.nodeCount id
  reaches : ∀ leaf, chart.Enters history id leaf → leaf ∈ after.leaves

theorem IsExpanded.of_leadsOn {after : Expansion} {id next : NodeId}
    (expanded : chart.IsExpanded history after id) (leads : chart.LeadsOn history id next) :
    chart.IsExpanded history after next where
  ends := expanded.ends.of_reflTransGen (.single leads)
  reaches leaf enters := expanded.reaches leaf (.step leads enters)

/-- Every leaf to which a visited node leads is reached. -/
theorem isExpanded_of_mem_visitsOf {residual : NodeSet} {seeds : List NodeId} {after : Expansion}
    (done : chart.expand history residual seeds = some after) :
    ∀ node ∈ chart.visitsOf history residual seeds, chart.IsExpanded history after node := by
  obtain ⟨reached, first, -⟩ := Option.bind_eq_some_iff.1 done
  refine forall_mem_visitsOf_of_regions (fun id next expanded => expanded.of_leadsOn) ?_ ?_ done
  · intro seed isSeed
    exact ⟨exists_foldlM_expandNode_iff.1 ⟨reached, first⟩ seed isSeed,
      fun leaf enters => mem_of_expand done (.inr ⟨seed, isSeed, enters⟩)⟩
  · intro limit middle filled region isMissing
    obtain ⟨fewer, next, stepped, others⟩ := exists_round_of_fillRegions isMissing filled
    refine ⟨exists_foldlM_expandNode_iff.1 ⟨next, stepped⟩ region isMissing, ?_⟩
    exact fun leaf enters =>
      mem_of_fillRegions others ((mem_expandNodes stepped).2 (.inr ⟨region, isMissing, enters⟩))

/-! ## What visits follow -/

/-- The transition that is followed when an expansion comes to a node: the initial one of a
composite state, or the default one of a history that has recorded nothing. -/
def followedBy (chart : Chart) (history : NodeMap (List NodeId)) (id : NodeId) :
    Option TransitionId :=
  let node := chart.node id
  match node.kind with
  | .root _ | .parallel => none
  | .state initial _ => if node.children.isEmpty then none else initial
  | .history _ default =>
    match history.find? id with
    | some _ => none
    | none => default

/-- The default transition that a visit follows if the node is a history of a certain owner. -/
def defaultFor (chart : Chart) (history : NodeMap (List NodeId)) (owner id : NodeId) :
    Option TransitionId :=
  if (chart.node id).isHistory = true ∧ chart.anchor id = owner then chart.followedBy history id
  else none

theorem initial_of_followedBy {id : NodeId} (isState : (chart.node id).isState = true)
    {followed : TransitionId} (follows : chart.followedBy history id = some followed) :
    (chart.node id).initial = some followed := by
  cases kind : (chart.node id).kind <;> simp_all [followedBy, Node.isState, Node.initial]

theorem mem_defaultEntries_arrive {reached : Expansion} {id node : NodeId} :
    node ∈ (chart.arrive history reached id).defaultEntries ↔
      node ∈ reached.defaultEntries ∨
        node = id ∧ (chart.node id).isState = true ∧ (chart.followedBy history id).isSome = true := by
  rw [arrive, followedBy]
  cases kind : (chart.node id).kind with
  | root initial => simp [Node.isState, kind]
  | parallel => simp [Node.isState, kind]
  | state initial isFinal =>
      cases childless : (chart.node id).children.isEmpty with
      | true => simp
      | false => cases initial <;> simp [Node.isState, kind, NodeSet.mem_insert, or_comm]
  | history sort default =>
      cases history.find? id <;> cases default <;> simp [Node.isState, kind]

theorem historyDefaults_arrive (reached : Expansion) (id owner : NodeId) :
    ((chart.arrive history reached id).historyDefaults.find? owner).getD [] =
      (reached.historyDefaults.find? owner).getD [] ++
        (chart.defaultFor history owner id).toList := by
  rw [arrive, defaultFor, followedBy, anchor]
  cases kind : (chart.node id).kind with
  | root initial => simp [Node.isHistory, kind]
  | parallel => simp [Node.isHistory, kind]
  | state initial isFinal =>
      cases childless : (chart.node id).children.isEmpty with
      | true => simp [Node.isHistory, kind]
      | false => cases initial <;> simp [Node.isHistory, kind]
  | history sort default =>
      cases found : history.find? id with
      | some recorded => simp
      | none =>
          cases default with
          | none => simp
          | some default =>
              have isHistory : (chart.node id).isHistory = true := by simp [Node.isHistory, kind]
              simp only [isHistory, if_true, true_and, Chart.parent, NodeMap.find?_insert]
              by_cases isOwner : (chart.node id).parent.getD rootId = owner
              · simp [isOwner]
              · simp [isOwner, Ne.symm isOwner]

theorem mem_defaultEntries_foldl {visited : List NodeId} {reached : Expansion} {node : NodeId} :
    node ∈ (visited.foldl (chart.arrive history) reached).defaultEntries ↔
      node ∈ reached.defaultEntries ∨ node ∈ visited ∧ (chart.node node).isState = true ∧
        (chart.followedBy history node).isSome = true := by
  induction visited generalizing reached with
  | nil => simp
  | cons id rest ih =>
      rw [List.foldl_cons, ih, mem_defaultEntries_arrive, or_assoc, List.mem_cons, or_and_right]
      exact or_congr_right (or_congr_left (and_congr_right fun same => same ▸ Iff.rfl))

theorem historyDefaults_foldl (visited : List NodeId) (reached : Expansion) (owner : NodeId) :
    ((visited.foldl (chart.arrive history) reached).historyDefaults.find? owner).getD [] =
      (reached.historyDefaults.find? owner).getD [] ++
        visited.filterMap (chart.defaultFor history owner) := by
  induction visited generalizing reached with
  | nil => simp
  | cons id rest ih =>
      rw [List.foldl_cons, ih, historyDefaults_arrive, List.append_assoc]
      cases follows : chart.defaultFor history owner id with
      | none => rw [List.filterMap_cons_none follows]; rfl
      | some default => rw [List.filterMap_cons_some follows]; rfl

end Chart

end Statechart
