import Mathlib.Data.List.Nodup
import Mathlib.Data.List.Perm.Basic
import Statechart.Proofs.Machine.Legality
import Statechart.Proofs.Machine.Turns
import Statechart.Proofs.Microstep.Completion
import Statechart.Proofs.Microstep.Records

/-!
# Snapshots name where a machine stands

Wherever a machine stands, its leaves, its done states and what its histories have
recorded are states and parallels.  Their ids lead back to them, so the chart finds in
a snapshot just the status that it was taken of.
-/

namespace Statechart

namespace Chart

variable {chart : Chart}

def IsStateOrParallel (chart : Chart) (node : NodeId) : Prop :=
  ((chart.node node).isState || (chart.node node).isParallel) = true

/-- Records of histories, each of states and parallels. -/
def AreNameable (chart : Chart) (records : List (NodeId × List NodeId)) : Prop :=
  ∀ record ∈ records, (chart.node record.1).isHistory = true ∧
    ∀ state ∈ record.2, chart.IsStateOrParallel state

theorem AreNameable.insert {records : List (NodeId × List NodeId)}
    (nameable : chart.AreNameable records) {history : NodeId} {recorded : List NodeId}
    (isHistory : (chart.node history).isHistory = true)
    (states : ∀ state ∈ recorded, chart.IsStateOrParallel state) :
    chart.AreNameable (Entries.insert history recorded records) := by
  intro record member
  rcases Entries.mem_of_mem_insert member with rfl | isOld
  · exact ⟨isHistory, states⟩
  · exact nameable record isOld

/-- A status in which all that a snapshot names is of the kind that is looked for when it
is restored. -/
structure IsNameable (chart : Chart) (status : Status) : Prop where
  leaves : ∀ leaf ∈ status.leaves, chart.IsStateOrParallel leaf
  done : ∀ state ∈ status.done, chart.IsStateOrParallel state
  history : chart.AreNameable status.history.entries

theorem isNameable_empty (chart : Chart) : chart.IsNameable {} :=
  ⟨fun leaf isLeaf => absurd isLeaf (NodeSet.not_mem_empty leaf),
    fun state isDone => absurd isDone (NodeSet.not_mem_empty state),
    fun _ isRecord => absurd isRecord List.not_mem_nil⟩

namespace IsTree

variable (tree : chart.IsTree)
include tree

theorem isProper_of_isHistory {node : NodeId} (isHistory : (chart.node node).isHistory = true) :
    chart.IsProper node := by
  apply tree.isProper_of_not_isRoot
  cases kind : (chart.node node).kind <;> simp_all [Node.isHistory, Node.isRoot]

theorem isStateOrParallel_iff {node : NodeId} :
    chart.IsStateOrParallel node ↔ chart.IsProper node ∧ (chart.node node).isHistory = false := by
  constructor
  · intro isKind
    refine ⟨tree.isProper_of_not_isRoot ?_, ?_⟩ <;>
      cases kind : (chart.node node).kind <;>
      simp_all [IsStateOrParallel, Node.isState, Node.isParallel, Node.isRoot, Node.isHistory]
  · rintro ⟨isProper, notHistory⟩
    have notRoot := tree.not_isRoot node isProper.1 isProper.2
    cases kind : (chart.node node).kind <;>
      simp_all [IsStateOrParallel, Node.isState, Node.isParallel, Node.isRoot, Node.isHistory]

end IsTree

/-! ## Looking names up -/

namespace IsExecutable

variable (executable : chart.IsExecutable)
include executable

theorem lookup_idOf_of_isStateOrParallel {node : NodeId} (isKind : chart.IsStateOrParallel node) :
    chart.lookup (chart.idOf node) = some node :=
  executable.lookup_idOf (executable.tree.isStateOrParallel_iff.1 isKind).1

/-- Ids lead to the states and parallels that have them. -/
theorem findStates_eq_ok_iff {ids : List String} {nodes : List NodeId} :
    chart.findStates ids = .ok nodes ↔
      (∀ node ∈ nodes, chart.IsStateOrParallel node) ∧ chart.idsOf nodes = ids := by
  refine mapM_eq_ok_iff fun id node => ?_
  constructor
  · intro found
    split at found
    · next other isFound =>
        split at found
        · next isKind =>
            cases found
            exact ⟨isKind, ((executable.finds _ _).1 isFound).2⟩
        · cases found
    · cases found
  · rintro ⟨isKind, rfl⟩
    rw [executable.lookup_idOf_of_isStateOrParallel isKind]
    exact if_pos isKind

theorem findHistory_eq_ok_iff {id : String} {history : NodeId} :
    chart.findHistory id = .ok history ↔
      (chart.node history).isHistory = true ∧ chart.idOf history = id := by
  unfold findHistory
  constructor
  · intro found
    split at found
    · next other isFound =>
        split at found
        · next isHistory =>
            cases found
            exact ⟨isHistory, ((executable.finds _ _).1 isFound).2⟩
        · cases found
    · cases found
  · rintro ⟨isHistory, rfl⟩
    rw [executable.lookup_idOf (executable.tree.isProper_of_isHistory isHistory)]
    exact if_pos isHistory

end IsExecutable

def nameRecord (chart : Chart) (record : NodeId × List NodeId) : String × List String :=
  (chart.idOf record.1, chart.idsOf record.2)

theorem findRecord_nameRecord (executable : chart.IsExecutable) {record : NodeId × List NodeId}
    (isHistory : (chart.node record.1).isHistory = true)
    (kinds : ∀ state ∈ record.2, chart.IsStateOrParallel state)
    (records : NodeMap (List NodeId)) :
    chart.findRecord records (chart.nameRecord record) =
      .ok (records.insert record.1 record.2) := by
  have found : chart.findHistory (chart.idOf record.1) = .ok record.1 :=
    executable.findHistory_eq_ok_iff.2 ⟨isHistory, rfl⟩
  have states : chart.findStates (chart.idsOf record.2) = .ok record.2 :=
    executable.findStates_eq_ok_iff.2 ⟨kinds, rfl⟩
  rw [findRecord, nameRecord, found]
  exact congrArg (Except.map (records.insert record.1)) states

theorem foldlM_findRecord (executable : chart.IsExecutable)
    {records : List (NodeId × List NodeId)} (kinds : chart.AreNameable records)
    (found : NodeMap (List NodeId)) :
    (records.map chart.nameRecord).foldlM chart.findRecord found =
      .ok (records.foldl (fun found record => found.insert record.1 record.2) found) := by
  induction records generalizing found with
  | nil => rfl
  | cons record rest ih =>
      obtain ⟨isHistory, states⟩ := kinds record List.mem_cons_self
      rw [List.map_cons, List.foldlM_cons, findRecord_nameRecord executable isHistory states]
      exact ih (fun other member => kinds other (List.mem_cons_of_mem _ member)) _

theorem entries_foldl_insert {Value : Type} (records : List (NodeId × Value))
    (found : NodeMap Value) :
    (records.foldl (fun found record => found.insert record.1 record.2) found).entries =
      records.foldl (fun entries record => Entries.insert record.1 record.2 entries)
        found.entries := by
  induction records generalizing found with
  | nil => rfl
  | cons record rest ih => exact ih _

/-- Inserting records of different histories only adds them. -/
theorem entries_foldl_insert_perm {Value : Type} {records : List (NodeId × Value)}
    (distinct : (Entries.keys records).Nodup) :
    (records.foldl (fun found record => found.insert record.1 record.2)
      (∅ : NodeMap Value)).entries.Perm records := by
  have inserted := Entries.foldl_insert_perm records [] (by rwa [List.append_nil])
  rw [List.append_nil] at inserted
  rw [entries_foldl_insert]
  exact inserted

theorem keys_map_nameRecord (records : List (NodeId × List NodeId)) :
    Entries.keys (records.map chart.nameRecord) = (Entries.keys records).map chart.idOf := by
  simp [Entries.keys, nameRecord, Function.comp_def]

/-- What the histories have recorded, by the ids of the nodes and in the order of the ids. -/
def nameRecords (chart : Chart) (records : List (NodeId × List NodeId)) :
    List (String × List String) :=
  records.foldl (fun named record =>
    Entries.insert (chart.idOf record.1) (chart.idsOf record.2) named) []

/-- Naming records puts them into another order only. -/
theorem nameRecords_perm (executable : chart.IsExecutable)
    {records : List (NodeId × List NodeId)} (distinct : (Entries.keys records).Nodup)
    (histories : ∀ record ∈ records, (chart.node record.1).isHistory = true) :
    (chart.nameRecords records).Perm (records.map chart.nameRecord) := by
  have namedDistinct : (Entries.keys (records.map chart.nameRecord)).Nodup := by
    have isProper : ∀ history ∈ Entries.keys records, chart.IsProper history := by
      intro history member
      obtain ⟨record, isRecord, rfl⟩ := List.mem_map.1 member
      exact executable.tree.isProper_of_isHistory (histories record isRecord)
    rw [keys_map_nameRecord]
    exact distinct.map_on fun a isA b isB =>
      executable.eq_of_idOf_eq (isProper a isA) (isProper b isB)
  have inserted := Entries.foldl_insert_perm (records.map chart.nameRecord) []
    (by rwa [List.append_nil])
  rw [List.append_nil, List.foldl_map] at inserted
  exact inserted

/-- The chart finds in named records the records that were named. -/
theorem foldlM_findRecord_nameRecords (executable : chart.IsExecutable)
    {history : NodeMap (List NodeId)} (nameable : chart.AreNameable history.entries) :
    (chart.nameRecords history.entries).foldlM chart.findRecord ∅ = .ok history := by
  -- The named records come in the order of their names, which is one of some permutation.
  obtain ⟨records, named, perm⟩ : Relation.Comp
      (fun named records => named = List.map chart.nameRecord records) List.Perm
      (chart.nameRecords history.entries) history.entries := by
    rw [List.eq_map_comp_perm]
    exact nameRecords_perm executable history.nodup_keys
      fun record member => (nameable record member).1
  have rebuilt : records.foldl (fun found record => found.insert record.1 record.2) ∅ =
      history := by
    have distinct := (perm.map Prod.fst).nodup_iff.2 history.nodup_keys
    exact NodeMap.eq_of_perm ((entries_foldl_insert_perm distinct).trans perm)
  have found := foldlM_findRecord executable
    (fun record member => nameable record (perm.mem_iff.1 member)) ∅
  rwa [rebuilt, ← named] at found

theorem findStates_inDocumentOrder (executable : chart.IsExecutable) {nodes : NodeSet}
    (kinds : ∀ node ∈ nodes, chart.IsStateOrParallel node) :
    chart.findStates (chart.idsOf (chart.inDocumentOrder nodes.toList)) =
      .ok (chart.inDocumentOrder nodes.toList) :=
  executable.findStates_eq_ok_iff.2
    ⟨fun node member => kinds node ((mem_sortOrdered _).1 member), rfl⟩

theorem ofList_inDocumentOrder (nodes : NodeSet) :
    NodeSet.ofList (chart.inDocumentOrder nodes.toList) = nodes := by
  ext node
  exact NodeSet.mem_ofList.trans (mem_sortOrdered _)

/-- A chart finds a status in a snapshot of its definition if it finds all that is named. -/
theorem statusOf_eq_ok_iff {snapshot : Snapshot} {status : Status} :
    chart.statusOf snapshot = .ok status ↔ snapshot.checksum = chart.checksum ∧
      ∃ leaves history done, chart.findStates snapshot.configuration = .ok leaves ∧
        snapshot.history.foldlM chart.findRecord ∅ = .ok history ∧
        chart.findStates snapshot.done = .ok done ∧
        status = ⟨.ofList leaves, history, .ofList done, snapshot.isFinal⟩ := by
  constructor
  · intro found
    unfold statusOf at found
    split at found
    · cases found
    · next sameDocument =>
        obtain ⟨leaves, areLeaves, found⟩ := exists_of_bind_eq_ok found
        obtain ⟨history, isHistory, found⟩ := exists_of_bind_eq_ok found
        obtain ⟨done, areDone, found⟩ := exists_of_bind_eq_ok found
        cases found
        exact ⟨by simpa using sameDocument, leaves, history, done, areLeaves, isHistory, areDone,
          rfl⟩
  · rintro ⟨sameDocument, leaves, history, done, areLeaves, isHistory, areDone, rfl⟩
    rw [statusOf, if_neg (by simpa using sameDocument), areLeaves, isHistory, areDone]
    rfl

theorem isNameable_of_statusOf (executable : chart.IsExecutable) {snapshot : Snapshot}
    {status : Status}
    (found : chart.statusOf snapshot = .ok status) : chart.IsNameable status := by
  obtain ⟨-, leaves, history, done, areLeaves, isHistory, areDone, rfl⟩ :=
    statusOf_eq_ok_iff.1 found
  have steps : ∀ (records : NodeMap (List NodeId)) (record : String × List String)
      (next : NodeMap (List NodeId)), record ∈ snapshot.history →
      chart.AreNameable records.entries → chart.findRecord records record = .ok next →
      chart.AreNameable next.entries := by
    intro records record next _ nameable recorded
    obtain ⟨history, isHistory, recorded⟩ := exists_of_bind_eq_ok recorded
    obtain ⟨states, areStates, recorded⟩ := exists_of_bind_eq_ok recorded
    cases recorded
    exact nameable.insert (executable.findHistory_eq_ok_iff.1 isHistory).1
      (executable.findStates_eq_ok_iff.1 areStates).1
  refine ⟨fun leaf isLeaf => ?_, fun state isDone => ?_, ?_⟩
  · exact (executable.findStates_eq_ok_iff.1 areLeaves).1 leaf (NodeSet.mem_ofList.1 isLeaf)
  · exact (executable.findStates_eq_ok_iff.1 areDone).1 state (NodeSet.mem_ofList.1 isDone)
  · exact foldlM_keeps steps (fun _ member => absurd member List.not_mem_nil) isHistory

/-! ## What microsteps keep -/

section Keeping

variable (tree : chart.IsTree)
include tree

theorem isStateOrParallel_of_parent {child parent : NodeId}
    (isParent : chart.parent child = some parent) (notRoot : parent ≠ rootId) :
    chart.IsStateOrParallel parent :=
  tree.isStateOrParallel_iff.2 ⟨⟨notRoot, tree.parent_lt_nodeCount isParent⟩,
    tree.not_isHistory_parent child parent isParent⟩

theorem isStateOrParallel_of_finishes {done : NodeSet} {child state : NodeId}
    (finishes : chart.Finishes done child state) : chart.IsStateOrParallel state := by
  obtain ⟨parent, isFinalChild, notRoot, rfl | ⟨isRegion, isUpper, -⟩⟩ := finishes
  · exact isStateOrParallel_of_parent tree isFinalChild.1 notRoot
  · obtain ⟨parallel, isParallelOf, isParallel⟩ := exists_parallel_of_isRegion isRegion
    obtain rfl := Option.some.inj (isUpper.symm.trans isParallelOf)
    exact Bool.or_eq_true_iff.2 (.inr isParallel)

theorem isStateOrParallel_of_entries {nodes : List NodeId} {before after : World}
    (entries : World.AreEntries chart nodes before after)
    (kinds : ∀ state ∈ before.status.done, chart.IsStateOrParallel state) :
    ∀ state ∈ after.status.done, chart.IsStateOrParallel state := by
  induction entries with
  | nil same =>
      rw [same.done_eq]
      exact kinds
  | cons entry others ih =>
      refine ih fun state isDone => ?_
      rcases (entry.mem_done state).1 isDone with ⟨wasDone, -⟩ | finishes
      · exact kinds state wasDone
      · exact isStateOrParallel_of_finishes tree finishes

/-- Histories record leaves or children of a state. -/
theorem areNameable_recordsAfter {status : Status} (nameable : chart.IsNameable status)
    (resolution : Resolution) :
    chart.AreNameable (World.recordsAfter chart status resolution).entries := by
  have recorded : ∀ state kind, ∀ node ∈ World.recordOf chart status.leaves state kind,
      chart.IsStateOrParallel node := by
    intro state kind node member
    cases kind with
    | deep =>
        exact nameable.leaves node (World.mem_recordOf_deep.1 member).1
    | shallow =>
        have isChild := (World.mem_recordOf_shallow.1 member).1
        obtain ⟨isParent, notHistory⟩ := (tree.mem_children state node).1 isChild
        exact tree.isStateOrParallel_iff.2
          ⟨⟨tree.ne_root_of_parent isParent, lt_nodeCount_of_parent isParent⟩, notHistory⟩
  let Known (records : NodeMap (List NodeId)) : Prop := chart.AreNameable records.entries
  unfold World.recordsAfter
  apply List.foldlRecOn (motive := Known) _ _ nameable.history
  intro records known state _
  apply List.foldlRecOn (motive := Known) _ _ known
  intro records known history _
  unfold World.recordHistory
  split
  · next kind _ isKind =>
      exact known.insert (by simp [Node.isHistory, isKind]) (recorded state kind)
  · exact known

end Keeping

end Chart

namespace World

theorem isNameable_of_microstep {program : Program} (tree : program.chart.IsTree)
    {world after : World} {initial : Option TransitionId} {events : List Event}
    {transitions : List TransitionId} (nameable : program.chart.IsNameable world.status)
    (done : world.microstep program initial events = .ok (transitions, after)) :
    program.chart.IsNameable after.status := by
  have legal := isLegal_of_microstep tree done
  obtain ⟨resolution, left, -, carries, ⟨cleared, clears, exits⟩, entries⟩ :=
    exists_proceeds_of_microstep done
  refine ⟨fun leaf isLeaf => ?_, ?_, ?_⟩
  · exact Bool.or_eq_true_iff.2 (.inl (Chart.isState_of_isAtomic (legal.atomic leaf isLeaf)))
  · refine Chart.isStateOrParallel_of_entries tree entries fun state isDone => ?_
    have wasDone := ((exits.mem_done state).1 isDone).1
    rw [clears.status_eq] at wasDone
    exact nameable.done state wasDone
  · rw [carries.history_eq]
    exact Chart.areNameable_recordsAfter tree nameable resolution

end World

namespace Machine

/-- A snapshot of a machine describes the status of the machine. -/
theorem statusOf_snapshot {machine : Machine} (executable : machine.chart.IsExecutable)
    (nameable : machine.chart.IsNameable machine.status) (time : Int64) :
    machine.chart.statusOf (machine.snapshot time) = .ok machine.status := by
  have leaves := Chart.findStates_inDocumentOrder executable nameable.leaves
  have done := Chart.findStates_inDocumentOrder executable nameable.done
  have history : (machine.snapshot time).history.foldlM machine.chart.findRecord ∅ =
      .ok machine.status.history :=
    Chart.foldlM_findRecord_nameRecords executable nameable.history
  refine Chart.statusOf_eq_ok_iff.2 ⟨rfl, _, _, _, leaves, history, done, ?_⟩
  rw [Chart.ofList_inDocumentOrder, Chart.ofList_inDocumentOrder]
  rfl

/-- A machine that stands where a snapshot can name it, and nowhere unless it is started. -/
structure StandsNameably (chart : Chart) (machine : Machine) : Prop where
  chart_eq : machine.chart = chart
  settled : machine.IsSettled
  nameable : chart.IsNameable machine.status

theorem standsNameably_of_isPrepared {machine : Machine} {chart : Chart}
    {settings : InterpreterSettings} (prepared : machine.IsPrepared chart settings) :
    StandsNameably chart machine where
  chart_eq := prepared.chart_eq
  settled := prepared.isSettled
  nameable := by
    rw [prepared.status_eq]
    exact Chart.isNameable_empty chart

/-- Whatever is asked of a machine, and whatever snapshot it is given, it stands where a
snapshot can name it. -/
theorem StandsNameably.perform {machine : Machine} {chart : Chart}
    (executable : chart.IsExecutable)
    (stands : StandsNameably chart machine) (operation : Operation) :
    StandsNameably chart (machine.perform operation).2 := by
  have succeeds := machine.succeeds_perform operation
  refine ⟨(congrArg Program.chart succeeds.program_eq).trans stands.chart_eq,
    succeeds.settled stands.settled, ?_⟩
  obtain rfl := stands.chart_eq
  by_cases restores : ∃ snapshot, operation = .restore snapshot
  · obtain ⟨snapshot, rfl⟩ := restores
    rw [Machine.perform]
    rcases machine.restore_cases snapshot with ⟨status, found, -, result⟩ |
      ⟨_, world, quiet, result⟩
    · rw [result]
      exact Chart.isNameable_of_statusOf executable found
    · rw [result]
      show machine.chart.IsNameable world.status
      rw [quiet.status_eq]
      exact stands.nameable
  · refine (keeps_of_perform (fun turn taken nameable => ?_) (Chart.isNameable_empty machine.chart)
      stands.settled stands.nameable fun snapshot same => restores ⟨snapshot, same⟩).2
    obtain ⟨-, world, initial, events, after, before_eq, -, stepped, -, after_eq⟩ := taken
    rw [← after_eq]
    exact World.isNameable_of_microstep executable.tree (before_eq ▸ nameable) stepped

end Machine

end Statechart
