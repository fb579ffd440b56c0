import Mathlib.Data.Finset.Filter
import Mathlib.Data.Finset.Range
import Mathlib.Data.Finset.Card
import Mathlib.Logic.Function.Iterate
import Mathlib.Logic.Relation
import Statechart.Proofs.Microstep.Rounds

/-!
# When an expansion comes to an end

An expansion works on a list of nodes that it has still to come to.  It takes the first
one off the list and puts what this node leads to in its place.  The list runs empty
unless one of its nodes leads to a node that leads back to itself.  On each such circle
lies a history, since every other node leads to nodes below it.  The rounds in which
regions are filled come to an end with the expansions of the regions, as each of them
adds a leaf.
-/

namespace Statechart

namespace Chart

variable {chart : Chart} {history : NodeMap (List NodeId)} {limit : Nat}

/-! ## Circles -/

/-- One node leads to another when it is expanded. -/
def LeadsOn (chart : Chart) (history : NodeMap (List NodeId)) (id next : NodeId) : Prop :=
  next ∈ chart.leadsTo history id

/-- A node leads back to itself. -/
def LeadsBack (chart : Chart) (history : NodeMap (List NodeId)) (id : NodeId) : Prop :=
  Relation.TransGen (chart.LeadsOn history) id id

theorem Ends.succ {id : NodeId} (ends : chart.Ends history limit id) :
    chart.Ends history (limit + 1) id := by
  induction limit generalizing id with
  | zero => exact absurd ends (not_ends_zero id)
  | succ limit ih => exact ends_succ_iff.2 fun next leads => ih (ends_succ_iff.1 ends next leads)

/-- What a node leads to takes less to be expanded. -/
theorem Ends.of_transGen {id later : NodeId} (ends : chart.Ends history (limit + 1) id)
    (leads : Relation.TransGen (chart.LeadsOn history) id later) :
    chart.Ends history limit later := by
  induction leads with
  | single leads => exact ends_succ_iff.1 ends _ leads
  | tail _ leads ih => exact ends_succ_iff.1 ih.succ _ leads

theorem Ends.of_reflTransGen {id later : NodeId} (ends : chart.Ends history limit id)
    (leads : Relation.ReflTransGen (chart.LeadsOn history) id later) :
    chart.Ends history limit later := by
  rcases Relation.reflTransGen_iff_eq_or_transGen.1 leads with rfl | leads
  · exact ends
  · exact ends.succ.of_transGen leads

theorem Ends.not_leadsBack {id : NodeId} (ends : chart.Ends history limit id) :
    ¬ chart.LeadsBack history id := by
  intro back
  induction limit with
  | zero => exact not_ends_zero id ends
  | succ limit ih => exact ih (ends.of_transGen back)

open Classical in
/-- The nodes that a node leads to, at once or by way of others. -/
noncomputable def successors (chart : Chart) (history : NodeMap (List NodeId)) (id : NodeId) :
    Finset NodeId :=
  (Finset.range chart.nodeCount).filter (Relation.TransGen (chart.LeadsOn history) id)

theorem mem_successors {id later : NodeId} :
    later ∈ chart.successors history id ↔
      later < chart.nodeCount ∧ Relation.TransGen (chart.LeadsOn history) id later := by
  classical
  rw [successors, Finset.mem_filter, Finset.mem_range]

namespace IsExecutable

variable (executable : chart.IsExecutable)
include executable

section Records

variable (records : chart.RecordsAreValid history)
include records

theorem isProper_of_leadsOn {id next : NodeId} (leads : chart.LeadsOn history id next) :
    chart.IsProper next :=
  executable.tree.isProper_of_isDescendant (executable.isDescendant_of_mem_leadsTo records leads)

theorem isProper_of_transGen {id later : NodeId}
    (leads : Relation.TransGen (chart.LeadsOn history) id later) : chart.IsProper later := by
  cases leads with
  | single leads => exact executable.isProper_of_leadsOn records leads
  | tail _ leads => exact executable.isProper_of_leadsOn records leads

/-- What leads to no circle leads to more nodes than the next one does. -/
theorem ends_of_card_successors_lt {id : NodeId}
    (noCircle : ∀ later, Relation.TransGen (chart.LeadsOn history) id later →
      ¬ chart.LeadsBack history later)
    (enough : (chart.successors history id).card < limit) : chart.Ends history limit id := by
  induction limit generalizing id with
  | zero => exact absurd enough (Nat.not_lt_zero _)
  | succ limit ih =>
      refine ends_succ_iff.2 fun next leads => ih (fun later reaches =>
        noCircle later (.head leads reaches)) ?_
      refine Nat.lt_of_lt_of_le (Finset.card_lt_card ?_) (Nat.le_of_lt_succ enough)
      refine (Finset.ssubset_iff_of_subset fun later member => ?_).2 ⟨next, ?_, fun member => ?_⟩
      · obtain ⟨inside, reaches⟩ := mem_successors.1 member
        exact mem_successors.2 ⟨inside, .head leads reaches⟩
      · exact mem_successors.2
          ⟨(executable.isProper_of_leadsOn records leads).2, .single leads⟩
      · exact noCircle next (.single leads) (mem_successors.1 member).2

/-- The expansion of a node comes to an end just in case the node leads to no circle. -/
theorem ends_iff {id : NodeId} :
    chart.Ends history chart.nodeCount id ↔
      ∀ later, Relation.ReflTransGen (chart.LeadsOn history) id later →
        ¬ chart.LeadsBack history later := by
  refine ⟨fun ends later leads => (ends.of_reflTransGen leads).not_leadsBack, fun noCircle =>
    executable.ends_of_card_successors_lt records (fun later leads =>
      noCircle later leads.to_reflTransGen) ?_⟩
  -- The root is no successor.
  have fewer : chart.successors history id ⊂ Finset.range chart.nodeCount := by
    refine (Finset.ssubset_iff_of_subset fun later member => ?_).2
      ⟨rootId, Finset.mem_range.2 executable.tree.nonempty, fun member => ?_⟩
    · exact Finset.mem_range.2 (mem_successors.1 member).1
    · exact (executable.isProper_of_transGen records (mem_successors.1 member).2).1 rfl
  exact Nat.lt_of_lt_of_eq (Finset.card_lt_card fewer) (Finset.card_range _)

/-- What leads on without a history on the way leads to higher numbers. -/
theorem lt_or_exists_history {id later : NodeId}
    (leads : Relation.TransGen (chart.LeadsOn history) id later) :
    id < later ∨ ∃ between, (chart.node between).isHistory = true ∧
      Relation.ReflTransGen (chart.LeadsOn history) id between ∧
      Relation.TransGen (chart.LeadsOn history) between later := by
  have higher : ∀ {first next : NodeId}, ¬ (chart.node first).isHistory = true →
      chart.LeadsOn history first next → first < next := by
    intro first next regular leads
    have below := executable.isDescendant_of_mem_leadsTo records leads
    rw [anchor, if_neg regular] at below
    exact executable.tree.lt_of_isDescendant below
  induction leads with
  | @single next leads =>
      by_cases isHistory : (chart.node id).isHistory = true
      · exact .inr ⟨id, isHistory, .refl, .single leads⟩
      · exact .inl (higher isHistory leads)
  | @tail middle next reaches leads ih =>
      rcases ih with less | ⟨between, isHistory, before, after⟩
      · by_cases isHistory : (chart.node middle).isHistory = true
        · exact .inr ⟨middle, isHistory, reaches.to_reflTransGen, .single leads⟩
        · exact .inl (Nat.lt_trans less (higher isHistory leads))
      · exact .inr ⟨between, isHistory, before, .tail after leads⟩

/-- On each circle lies a history. -/
theorem exists_history_of_leadsBack {id : NodeId} (back : chart.LeadsBack history id) :
    ∃ between, (chart.node between).isHistory = true ∧ chart.LeadsBack history between := by
  rcases executable.lt_or_exists_history records back with less |
    ⟨between, isHistory, before, after⟩
  · exact absurd less (Nat.lt_irrefl id)
  · exact ⟨between, isHistory, after.trans_left before⟩

/-- Where no history leads back to itself, all expansions come to an end. -/
theorem ends_of_histories
    (noCircle : ∀ id, (chart.node id).isHistory = true → ¬ chart.LeadsBack history id)
    (id : NodeId) : chart.Ends history chart.nodeCount id := by
  refine (executable.ends_iff records).2 fun later _ back => ?_
  obtain ⟨between, isHistory, circle⟩ := executable.exists_history_of_leadsBack records back
  exact noCircle between isHistory circle

end Records

end IsExecutable

/-- Where every step leads to a lower rank, nothing leads back to itself. -/
theorem not_leadsBack_of_rank {rank : NodeId → Nat}
    (lower : ∀ id next, chart.LeadsOn history id next → rank next < rank id) (id : NodeId) :
    ¬ chart.LeadsBack history id := by
  have descends : ∀ later, Relation.TransGen (chart.LeadsOn history) id later →
      rank later < rank id := by
    intro later leads
    induction leads with
    | single leads => exact lower _ _ leads
    | tail _ leads ih => exact Nat.lt_trans (lower _ _ leads) ih
  exact fun back => Nat.lt_irrefl _ (descends id back)

theorem leadsTo_of_le {id : NodeId} (outside : chart.nodeCount ≤ id) :
    chart.leadsTo history id = [] := by
  rw [leadsTo, node_of_le outside]
  rfl

/-- Ranks can be compared node by node. -/
theorem lt_of_leadsOn_of_all {rank : NodeId → Nat}
    (all : (List.range chart.nodeCount).all (fun id =>
      (chart.leadsTo history id).all (fun next => decide (rank next < rank id))) = true) :
    ∀ id next, chart.LeadsOn history id next → rank next < rank id := by
  intro id next leads
  have inside : id < chart.nodeCount := by
    apply Nat.lt_of_not_le
    intro outside
    rw [LeadsOn, leadsTo_of_le outside] at leads
    cases leads
  have each := List.all_eq_true.1 all id (List.mem_range.2 inside)
  exact of_decide_eq_true (List.all_eq_true.1 each next leads)

/-! ## Visits -/

/-- The nodes that the expansion of a node comes to, one after the other. -/
def visits (chart : Chart) (history : NodeMap (List NodeId)) : Nat → NodeId → List NodeId
  | 0, _ => []
  | limit + 1, id => id :: (chart.leadsTo history id).flatMap (visits chart history limit)

theorem foldlM_eq_foldl_flatMap {nodes : List NodeId}
    (each : ∀ node ∈ nodes, ∀ reached, chart.expandNode history limit reached node =
      some ((chart.visits history limit node).foldl (chart.arrive history) reached))
    (reached : Expansion) :
    nodes.foldlM (chart.expandNode history limit) reached =
      some ((nodes.flatMap (chart.visits history limit)).foldl (chart.arrive history) reached) := by
  induction nodes generalizing reached with
  | nil => rfl
  | cons node rest ih =>
      rw [List.foldlM_cons, each node List.mem_cons_self, List.flatMap_cons, List.foldl_append]
      exact ih (fun other member => each other (List.mem_cons_of_mem node member)) _

/-- An expansion arrives at one node after the other. -/
theorem Ends.expandNode_eq {id : NodeId} (ends : chart.Ends history limit id)
    (reached : Expansion) :
    chart.expandNode history limit reached id =
      some ((chart.visits history limit id).foldl (chart.arrive history) reached) := by
  induction limit generalizing id reached with
  | zero => exact absurd ends (not_ends_zero id)
  | succ limit ih =>
      rw [expandNode_succ, visits, List.foldl_cons]
      exact foldlM_eq_foldl_flatMap (fun next leads => ih (ends_succ_iff.1 ends next leads)) _

theorem foldlM_expandNode_eq {nodes : List NodeId}
    (ends : ∀ id ∈ nodes, chart.Ends history limit id) (reached : Expansion) :
    nodes.foldlM (chart.expandNode history limit) reached =
      some ((nodes.flatMap (chart.visits history limit)).foldl (chart.arrive history) reached) :=
  foldlM_eq_foldl_flatMap (fun id member => (ends id member).expandNode_eq) reached

end Chart

/-! ## The worklist -/

/-- What an expansion has reached, and the nodes that it has still to come to. -/
structure Agenda where
  reached : Expansion
  pending : List NodeId

namespace Agenda

variable {chart : Chart} {history : NodeMap (List NodeId)} {limit : Nat}

/-- The expansion comes to the first node, and puts what this one leads to in its place. -/
def next (chart : Chart) (history : NodeMap (List NodeId)) (agenda : Agenda) : Agenda :=
  match agenda.pending with
  | [] => agenda
  | id :: rest => ⟨chart.arrive history agenda.reached id, chart.leadsTo history id ++ rest⟩

/-- The agenda after some iterations. -/
def iterate (chart : Chart) (history : NodeMap (List NodeId)) (agenda : Agenda)
    (iterations : Nat) : Agenda :=
  (next chart history)^[iterations] agenda

theorem iterate_add (agenda : Agenda) (first second : Nat) :
    agenda.iterate chart history (first + second) =
      (agenda.iterate chart history first).iterate chart history second := by
  rw [iterate, Nat.add_comm, Function.iterate_add_apply]
  rfl

/-- An empty list stays empty. -/
theorem iterate_of_pending_eq_nil {agenda : Agenda} (isEmpty : agenda.pending = [])
    (iterations : Nat) : agenda.iterate chart history iterations = agenda := by
  apply Function.iterate_fixed
  rw [next, isEmpty]

/-- An agenda runs empty in one way only. -/
theorem eq_of_iterate {agenda : Agenda} {first second : Nat}
    (firstEmpty : (agenda.iterate chart history first).pending = [])
    (secondEmpty : (agenda.iterate chart history second).pending = []) :
    agenda.iterate chart history first = agenda.iterate chart history second := by
  rcases Nat.le_total first second with isLess | isLess
  · rw [← Nat.add_sub_cancel' isLess, iterate_add, iterate_of_pending_eq_nil firstEmpty]
  · rw [← Nat.add_sub_cancel' isLess, iterate_add, iterate_of_pending_eq_nil secondEmpty]

/-- Nodes whose expansions come to an end are worked off in as many iterations as there are
visits. -/
theorem iterate_visits {nodes : List NodeId}
    (ends : ∀ id ∈ nodes, chart.Ends history limit id) (rest : List NodeId)
    (reached : Expansion) :
    iterate chart history ⟨reached, nodes ++ rest⟩
        (nodes.flatMap (chart.visits history limit)).length =
      ⟨(nodes.flatMap (chart.visits history limit)).foldl (chart.arrive history) reached, rest⟩ := by
  induction limit generalizing nodes rest reached with
  | zero =>
      cases nodes with
      | nil => rfl
      | cons id others => exact absurd (ends id List.mem_cons_self) (Chart.not_ends_zero id)
  | succ limit deeper =>
      induction nodes generalizing reached with
      | nil => rfl
      | cons id others ih =>
          have below := deeper (Chart.ends_succ_iff.1 (ends id List.mem_cons_self))
            (others ++ rest) (chart.arrive history reached id)
          have beside := ih fun other member => ends other (List.mem_cons_of_mem id member)
          rw [List.flatMap_cons, List.length_append, iterate_add, Chart.visits, List.length_cons,
            Nat.add_comm _ 1, iterate_add, List.foldl_append, List.foldl_cons, ← beside, ← below]
          rfl

/-- An expansion that comes to an end works off the list. -/
theorem exists_iterate_of_expandNodes {agenda : Agenda} {after : Expansion}
    (done : chart.expandNodes history agenda.reached agenda.pending = some after) :
    ∃ iterations, agenda.iterate chart history iterations = ⟨after, []⟩ := by
  have ends := Chart.exists_foldlM_expandNode_iff.1 ⟨after, done⟩
  have isAfter := iterate_visits ends [] agenda.reached
  rw [List.append_nil] at isAfter
  rw [Chart.expandNodes, Chart.foldlM_expandNode_eq ends] at done
  exact ⟨_, Option.some.inj done ▸ isAfter⟩

/-- Each node on a list that runs empty takes as many iterations at most. -/
theorem ends_of_iterate {agenda : Agenda} {iterations : Nat}
    (isEmpty : (agenda.iterate chart history iterations).pending = []) :
    ∀ id ∈ agenda.pending, chart.Ends history iterations id := by
  induction iterations generalizing agenda with
  | zero =>
      intro id member
      rw [show agenda.pending = [] from isEmpty] at member
      cases member
  | succ iterations ih =>
      obtain ⟨reached, pending⟩ := agenda
      cases pending with
      | nil => exact fun id member => absurd member List.not_mem_nil
      | cons first rest =>
          rw [Nat.add_comm, iterate_add] at isEmpty
          have others := ih isEmpty
          intro id member
          rcases List.mem_cons.1 member with rfl | isRest
          · exact Chart.ends_succ_iff.2 fun next leads =>
              others next (List.mem_append_left rest leads)
          · exact (others id (List.mem_append_right _ isRest)).succ

section Executable

variable (executable : chart.IsExecutable) (records : chart.RecordsAreValid history)
include executable records

/-- The list runs empty just in case none of its nodes leads to a circle. -/
theorem exists_iterate_iff {agenda : Agenda} :
    (∃ iterations, (agenda.iterate chart history iterations).pending = []) ↔
      ∀ id ∈ agenda.pending, ∀ later, Relation.ReflTransGen (chart.LeadsOn history) id later →
        ¬ chart.LeadsBack history later := by
  constructor
  · rintro ⟨iterations, isEmpty⟩ id member later leads
    exact ((ends_of_iterate isEmpty id member).of_reflTransGen leads).not_leadsBack
  · intro noCircle
    obtain ⟨after, done⟩ : ∃ after,
        chart.expandNodes history agenda.reached agenda.pending = some after := by
      apply Chart.exists_foldlM_expandNode_iff.2
      exact fun id member => (executable.ends_iff records).2 (noCircle id member)
    obtain ⟨iterations, isAfter⟩ := exists_iterate_of_expandNodes done
    exact ⟨iterations, congrArg pending isAfter⟩

/-- What the expansion of nodes yields is what is reached when the list has run empty. -/
theorem exists_iterate_eq_iff {agenda : Agenda} {after : Expansion} :
    (∃ iterations, agenda.iterate chart history iterations = ⟨after, []⟩) ↔
      chart.expandNodes history agenda.reached agenda.pending = some after := by
  refine ⟨fun ⟨iterations, isAfter⟩ => ?_, exists_iterate_of_expandNodes⟩
  have isEmpty : (agenda.iterate chart history iterations).pending = [] :=
    congrArg pending isAfter
  have noCircle := (exists_iterate_iff executable records).1 ⟨iterations, isEmpty⟩
  obtain ⟨other, done⟩ : ∃ other,
      chart.expandNodes history agenda.reached agenda.pending = some other := by
    apply Chart.exists_foldlM_expandNode_iff.2
    exact fun id member => (executable.ends_iff records).2 (noCircle id member)
  obtain ⟨others, isOther⟩ := exists_iterate_of_expandNodes done
  have same := eq_of_iterate isEmpty (congrArg pending isOther)
  rw [isAfter, isOther] at same
  exact done.trans (congrArg (fun agenda => some agenda.reached) same).symm

end Executable

end Agenda

/-! ## Filling regions -/

namespace Chart

variable {chart : Chart} {history : NodeMap (List NodeId)} {limit : Nat}

/-- The nodes that are no leaves. -/
def spareNodes (chart : Chart) (leaves : NodeSet) : Finset NodeId :=
  (Finset.range chart.nodeCount).filter (fun node => ¬ node ∈ leaves)

theorem mem_spareNodes {leaves : NodeSet} {node : NodeId} :
    node ∈ chart.spareNodes leaves ↔ node < chart.nodeCount ∧ ¬ node ∈ leaves := by
  rw [spareNodes, Finset.mem_filter, Finset.mem_range]

namespace IsExecutable

variable (executable : chart.IsExecutable) (records : chart.RecordsAreValid history)
  (parallels : chart.ParallelsHaveChildren)
include executable records parallels

/-- A round of filling adds a leaf. -/
theorem spareNodes_ssubset_of_round {reached next : Expansion}
    (missing : chart.missingRegions reached.leaves ≠ [])
    (stepped : chart.expandNodes history reached (chart.missingRegions reached.leaves) =
      some next) : chart.spareNodes next.leaves ⊂ chart.spareNodes reached.leaves := by
  have tree := executable.tree
  obtain ⟨region, isMissing⟩ := List.exists_mem_of_ne_nil _ missing
  obtain ⟨parallel, -, -, isChild, inactive⟩ := mem_missingRegions.1 isMissing
  have isParent := tree.parent_of_mem_children isChild
  have notRoot := tree.ne_root_of_parent isParent
  obtain ⟨start, last, expanded⟩ := exists_expandNode_of_expandNodes stepped region isMissing
  obtain ⟨leaf, enters⟩ := executable.exists_enters records parallels
    ⟨notRoot, lt_nodeCount_of_parent isParent⟩ expanded
  have within := executable.isWithin_anchor_of_enters records enters
  rw [anchor_of_mem_children tree isChild] at within
  refine (Finset.ssubset_iff_of_subset fun node member => ?_).2 ⟨leaf, ?_, fun member => ?_⟩
  · obtain ⟨inside, isNew⟩ := mem_spareNodes.1 member
    exact mem_spareNodes.2 ⟨inside, fun isOld => isNew ((mem_expandNodes stepped).2 (.inl isOld))⟩
  · refine mem_spareNodes.2 ⟨(tree.isNode_of_isState (isState_of_isAtomic enters.isAtomic)).2,
      fun isOld => inactive (tree.mem_active.2 ⟨notRoot, leaf, isOld, within⟩)⟩
  · exact (mem_spareNodes.1 member).2
      ((mem_expandNodes stepped).2 (.inr ⟨region, isMissing, enters⟩))

/-- Filling regions comes to an end if the expansion of each region does. -/
theorem exists_fillRegions
    (ends : ∀ region, chart.IsProper region → chart.Ends history chart.nodeCount region)
    {reached : Expansion} (enough : (chart.spareNodes reached.leaves).card < limit) :
    ∃ after, chart.fillRegions history limit reached = some after := by
  induction limit generalizing reached with
  | zero => exact absurd enough (Nat.not_lt_zero _)
  | succ limit ih =>
      rw [fillRegions]
      split
      · exact ⟨reached, rfl⟩
      · next missing =>
          obtain ⟨next, stepped⟩ : ∃ next, chart.expandNodes history reached
              (chart.missingRegions reached.leaves) = some next := by
            refine exists_foldlM_expandNode_iff.2 fun region isMissing => ends region ?_
            obtain ⟨parallel, -, -, isChild, -⟩ := mem_missingRegions.1 isMissing
            have isParent := executable.tree.parent_of_mem_children isChild
            exact ⟨executable.tree.ne_root_of_parent isParent, lt_nodeCount_of_parent isParent⟩
          have fewer := Finset.card_lt_card
            (executable.spareNodes_ssubset_of_round records parallels missing stepped)
          obtain ⟨after, done⟩ := ih (Nat.lt_of_lt_of_le fewer (Nat.le_of_lt_succ enough))
          exact ⟨after, by rw [stepped]; exact done⟩

/-- An expansion comes to an end if that of each seed and of each region does. -/
theorem exists_expand
    (ends : ∀ region, chart.IsProper region → chart.Ends history chart.nodeCount region)
    {residual : NodeSet} {seeds : List NodeId}
    (seedsEnd : ∀ seed ∈ seeds, chart.Ends history chart.nodeCount seed) :
    ∃ after, chart.expand history residual seeds = some after := by
  obtain ⟨reached, first⟩ : ∃ reached,
      chart.expandNodes history { leaves := residual } seeds = some reached :=
    exists_foldlM_expandNode_iff.2 seedsEnd
  have few : (chart.spareNodes reached.leaves).card ≤ chart.nodeCount :=
    (Finset.card_le_card (Finset.filter_subset _ _)).trans_eq (Finset.card_range _)
  obtain ⟨after, others⟩ := executable.exists_fillRegions records parallels ends
    (Nat.lt_succ_of_le few)
  exact ⟨after, Option.bind_eq_some_iff.2 ⟨reached, first, others⟩⟩

end IsExecutable

end Chart

end Statechart
