import Statechart.Proofs.Machine.Reachable
import Statechart.Proofs.Microstep.Coherence

/-!
# What a restored machine takes from its snapshot

Restoring asks whether a snapshot is of the same definition, names states and histories
that exist, and describes a legal configuration.  The records of the histories and the
final flag are taken as they are, so those of a restored machine fit the chart just if
those of the snapshot do.  In the snapshots that machines take, they fit.
-/

namespace Statechart

namespace Chart

variable {chart : Chart}

/-! ## What names lead to -/

/-- What is found in named records are records of these names, one after the other. -/
theorem exists_records_of_findRecord (executable : chart.IsExecutable)
    {named : List (String × List String)} {start found : NodeMap (List NodeId)}
    (isFound : named.foldlM chart.findRecord start = .ok found) :
    ∃ records, records.map chart.nameRecord = named ∧ chart.AreNameable records ∧
      found = records.foldl (fun found record => found.insert record.1 record.2) start := by
  induction named generalizing start with
  | nil =>
      cases isFound
      exact ⟨[], rfl, fun record member => absurd member List.not_mem_nil, rfl⟩
  | cons entry rest ih =>
      rw [List.foldlM_cons] at isFound
      obtain ⟨next, isNext, others⟩ := exists_of_bind_eq_ok isFound
      obtain ⟨history, isHistory, isNext⟩ := exists_of_bind_eq_ok isNext
      obtain ⟨states, areStates, isNext⟩ := exists_of_bind_eq_ok isNext
      cases isNext
      obtain ⟨records, rfl, nameable, rfl⟩ := ih others
      refine ⟨(history, states) :: records, ?_, fun record member => ?_, rfl⟩
      · rw [List.map_cons, nameRecord, (executable.findHistory_eq_ok_iff.1 isHistory).2,
          (executable.findStates_eq_ok_iff.1 areStates).2]
      · rcases List.mem_cons.1 member with rfl | isRest
        · exact ⟨(executable.findHistory_eq_ok_iff.1 isHistory).1,
            (executable.findStates_eq_ok_iff.1 areStates).1⟩
        · exact nameable record isRest

/-- A history has recorded just what is named under its id. -/
theorem map_idsOf_find? (executable : chart.IsExecutable) {named : List (String × List String)}
    (distinct : (Entries.keys named).Nodup) {found : NodeMap (List NodeId)}
    (isFound : named.foldlM chart.findRecord ∅ = .ok found) {history : NodeId}
    (isHistory : (chart.node history).isHistory = true) :
    (found.find? history).map chart.idsOf = Entries.find? (chart.idOf history) named := by
  obtain ⟨records, rfl, nameable, rfl⟩ := exists_records_of_findRecord executable isFound
  rw [keys_map_nameRecord] at distinct
  have added := entries_foldl_insert_perm distinct.of_map
  ext ids
  rw [Option.map_eq_some_iff, Entries.find?_eq_some_iff (by rwa [keys_map_nameRecord])]
  simp only [NodeMap.find?, Entries.find?_eq_some_iff (NodeMap.nodup_keys _), added.mem_iff]
  constructor
  · rintro ⟨recorded, isRecord, rfl⟩
    exact List.mem_map.2 ⟨_, isRecord, rfl⟩
  · intro isNamed
    obtain ⟨⟨other, recorded⟩, isRecord, same⟩ := List.mem_map.1 isNamed
    obtain ⟨sameId, rfl⟩ := Prod.mk.inj same
    have tree := executable.tree
    obtain rfl := executable.eq_of_idOf_eq
      (tree.isProper_of_isHistory (nameable _ isRecord).1) (tree.isProper_of_isHistory isHistory)
      sameId
    exact ⟨recorded, isRecord, rfl⟩

/-! ## Snapshots that fit a chart -/

/-- What is named for the histories is what they may remember, and the snapshot is final if
a final state at the top is active in it. -/
structure IsCoherentSnapshot (chart : Chart) (snapshot : Snapshot) : Prop where
  records : ∀ kind owner history, chart.IsHistoryOf kind owner history →
    ∀ ids, Entries.find? (chart.idOf history) snapshot.history = some ids →
      ids ≠ [] ∧ ∀ id ∈ ids, ∃ state, chart.lookup id = some state ∧
        chart.IsRecordable kind owner state
  isFinal_iff : snapshot.isFinal = true ↔
    ∃ child ∈ chart.root.children, (chart.node child).isFinal = true ∧
      ∃ id ∈ snapshot.configuration, ∃ leaf, chart.lookup id = some leaf ∧
        chart.isWithin leaf child = true

theorem IsHistoryOf.isHistory {kind : HistoryKind} {owner history : NodeId}
    (isHistoryOf : chart.IsHistoryOf kind owner history) :
    (chart.node history).isHistory = true := by
  obtain ⟨⟨default, isKind⟩, -⟩ := isHistoryOf
  simp [Node.isHistory, isKind]

section Lookup

variable (executable : chart.IsExecutable) {nodes : List NodeId}
  (kinds : ∀ node ∈ nodes, chart.IsStateOrParallel node) {Holds : NodeId → Prop}
include executable kinds

/-- What holds of what the names of nodes lead to holds of the nodes. -/
theorem forall_lookup_iff :
    (∀ id ∈ chart.idsOf nodes, ∃ node, chart.lookup id = some node ∧ Holds node) ↔
      ∀ node ∈ nodes, Holds node := by
  rw [idsOf, List.forall_mem_map]
  refine forall₂_congr fun node member => ?_
  simp [executable.lookup_idOf_of_isStateOrParallel (kinds node member)]

theorem exists_lookup_iff :
    (∃ id ∈ chart.idsOf nodes, ∃ node, chart.lookup id = some node ∧ Holds node) ↔
      ∃ node ∈ nodes, Holds node := by
  simp only [idsOf, List.mem_map, exists_exists_and_eq_and]
  refine exists_congr fun node => and_congr_right fun member => ?_
  simp [executable.lookup_idOf_of_isStateOrParallel (kinds node member)]

end Lookup

theorem IsNameable.of_find? {status : Status} (nameable : chart.IsNameable status)
    {history : NodeId} {recorded : List NodeId}
    (found : status.history.find? history = some recorded) :
    (chart.node history).isHistory = true ∧ ∀ state ∈ recorded, chart.IsStateOrParallel state :=
  nameable.history (history, recorded)
    ((Entries.find?_eq_some_iff (NodeMap.nodup_keys _)).1 found)

/-- The status that a chart finds in a snapshot is coherent just if the snapshot is. -/
theorem isCoherent_iff_of_statusOf (executable : chart.IsExecutable) {snapshot : Snapshot}
    (distinct : (Entries.keys snapshot.history).Nodup) {status : Status}
    (isStatus : chart.statusOf snapshot = .ok status) :
    chart.IsCoherent status ↔ chart.IsCoherentSnapshot snapshot := by
  have tree := executable.tree
  have nameable := isNameable_of_statusOf executable isStatus
  obtain ⟨-, leaves, history, done, areLeaves, isHistory, -, rfl⟩ := statusOf_eq_ok_iff.1 isStatus
  have records : ∀ kind owner node, chart.IsHistoryOf kind owner node →
      ((∀ recorded, history.find? node = some recorded →
        recorded ≠ [] ∧ ∀ state ∈ recorded, chart.IsRecordable kind owner state) ↔
      ∀ ids, Entries.find? (chart.idOf node) snapshot.history = some ids →
        ids ≠ [] ∧ ∀ id ∈ ids, ∃ state, chart.lookup id = some state ∧
          chart.IsRecordable kind owner state) := by
    intro kind owner node isHistoryOf
    simp only [← map_idsOf_find? executable distinct isHistory isHistoryOf.isHistory,
      Option.map_eq_some_iff, forall_exists_index, and_imp, forall_apply_eq_imp_iff₂]
    refine forall₂_congr fun recorded found => ?_
    rw [forall_lookup_iff executable (nameable.of_find? found).2]
    simp [idsOf]
  have final : chart.HasFinalChild (chart.active (.ofList leaves)) rootId ↔
      ∃ child ∈ chart.root.children, (chart.node child).isFinal = true ∧
        ∃ id ∈ snapshot.configuration, ∃ leaf, chart.lookup id = some leaf ∧
          chart.isWithin leaf child = true := by
    obtain ⟨kinds, named⟩ := executable.findStates_eq_ok_iff.1 areLeaves
    rw [← named]
    simp only [exists_lookup_iff executable kinds]
    refine exists_congr fun child => and_congr_right fun isChild => ?_
    have notRoot := tree.ne_root_of_parent (tree.parent_of_mem_children isChild)
    rw [tree.mem_active, and_iff_right notRoot, and_comm]
    simp only [NodeSet.mem_ofList]
  constructor
  · intro coherent
    exact ⟨fun kind owner node isHistoryOf =>
      (records kind owner node isHistoryOf).1 (coherent.records kind owner node isHistoryOf),
      coherent.isFinal_iff.trans final⟩
  · intro coherent
    exact ⟨fun kind owner node isHistoryOf =>
      (records kind owner node isHistoryOf).2 (coherent.records kind owner node isHistoryOf),
      coherent.isFinal_iff.trans final.symm⟩

end Chart

namespace Machine

variable {definition : Definition} {machine after : Machine}

/-! ## Machines that come about -/

/-- Whatever the parallels of a chart, all machines that come about stand coherently. -/
theorem ComesAbout.isCoherent (comesAbout : ComesAbout definition machine) :
    machine.chart.IsCoherent machine.status := by
  have executable := Chart.isExecutable_of_chartOf comesAbout.chartOf_eq
  let Holds (status : Status) : Prop :=
    (∀ leaf ∈ status.leaves, (machine.chart.node leaf).isAtomic = true) ∧
      machine.chart.IsCoherent status
  have fresh : Holds {} := ⟨fun leaf isLeaf => absurd isLeaf (NodeSet.not_mem_empty leaf),
    Chart.isCoherent_empty executable.tree⟩
  have turns : ∀ (program : Program) (turn : Turn), program.chart = machine.chart →
      turn.IsTaken program → Holds turn.before → Holds turn.after := by
    rintro program turn same taken ⟨atomic, coherent⟩
    obtain ⟨before, after, initial, events, isBefore, -, done, -, isAfter⟩ :=
      taken.exists_step_in_world
    have notFinal := taken.notFinal
    rw [← same] at executable atomic coherent
    rw [← isBefore] at atomic coherent notFinal
    obtain ⟨resolution, left, proceeds⟩ := World.exists_proceeds_of_microstep done
    have coherentAfter := proceeds.isCoherent executable atomic notFinal coherent
    have legal := World.isLegal_of_microstep executable.tree done
    rw [same, isAfter] at coherentAfter legal
    exact ⟨legal.atomic, coherentAfter⟩
  exact (comesAbout.keeps comesAbout.chartOf_eq fresh turns).2

/-! ## Restoring -/

/-- A machine that restores a snapshot, in which every history is named once, stands in a legal
configuration and has the final flag of the snapshot and its records, which are of histories
and list states and parallels.  So it stands coherently just if the snapshot is coherent, as
are the snapshots of all machines that come about from the definition. -/
theorem restore_takes_records_as_named {snapshot : Snapshot}
    (isChart : chartOf definition = .ok machine.chart)
    (distinct : (Entries.keys snapshot.history).Nodup)
    (restored : machine.restore snapshot = (.ok (), after)) :
    after.chart = machine.chart ∧
      machine.chart.IsLegalConfiguration after.status.leaves ∧
      (∀ history recorded, after.status.history.find? history = some recorded →
        (machine.chart.node history).isHistory = true ∧
          ∀ state ∈ recorded, machine.chart.IsStateOrParallel state) ∧
      (∀ history, (machine.chart.node history).isHistory = true →
        (after.status.history.find? history).map machine.chart.idsOf =
          Entries.find? (machine.chart.idOf history) snapshot.history) ∧
      after.status.isFinal = snapshot.isFinal ∧
      (machine.chart.IsCoherent after.status ↔ machine.chart.IsCoherentSnapshot snapshot) ∧
      ∀ other time, ComesAbout definition other → snapshot = other.snapshot time →
        machine.chart.IsCoherent after.status := by
  have executable := Chart.isExecutable_of_chartOf isChart
  obtain ⟨status, isStatus, noViolations, rfl⟩ := restore_eq_ok_iff.1 restored
  obtain ⟨-, leaves, records, done, -, areRecords, -, status_eq⟩ :=
    Chart.statusOf_eq_ok_iff.1 isStatus
  refine ⟨rfl, executable.tree.violations_eq_nil_iff.1 noViolations,
    fun history recorded => (Chart.isNameable_of_statusOf executable isStatus).of_find?,
    fun history isHistory => ?_, ?_,
    Chart.isCoherent_iff_of_statusOf executable distinct isStatus, ?_⟩
  · show (status.history.find? history).map _ = _
    rw [status_eq]
    exact Chart.map_idsOf_find? executable distinct areRecords isHistory
  · show status.isFinal = snapshot.isFinal
    rw [status_eq]
  · rintro other time comesAbout rfl
    have there := comesAbout.stands isChart
    have coherent := comesAbout.isCoherent
    have named := statusOf_snapshot (there.chart_eq ▸ executable)
      (there.chart_eq ▸ there.nameable) time
    rw [there.chart_eq] at named coherent
    show machine.chart.IsCoherent status
    rw [Except.ok.inj (isStatus.symm.trans named)]
    exact coherent

/-- A house that is left for the garden, and entered where it was left or by the hall. -/
def house : Definition :=
  { states := [
      { id := some "house", histories := [
          { id := some "back", kind := .deep }, { id := some "front", kind := .shallow }],
        transitions := [{ event := some "leave", target := some "garden" }], states := [
        { id := some "hall", transitions := [{ event := some "ascend", target := some "attic" }] },
        { id := some "attic" }] },
      { id := some "garden", isFinal := true }] }

def houseAfter (operations : List Operation) : Machine :=
  (preparedOrEmpty house {} {} []).performAll operations

def houseBuilt : Machine :=
  houseAfter []

/-- A machine that was left in the attic. -/
def houseLeft : Machine :=
  houseAfter [.start, .fire { name := "ascend" }, .fire { name := "leave" }]

theorem comesAbout_houseAfter {operations : List Operation}
    (notRestore : ∀ operation ∈ operations, ∀ snapshot, operation ≠ .restore snapshot) :
    ComesAbout house (houseAfter operations) := by
  have prepared : ComesAbout house (preparedOrEmpty house {} {} []) :=
    .prepared (prepare_eq_ok (by decide +kernel))
  exact prepared.performAll notRestore

/-- Another machine is put into the garden, with the attic to return to. -/
theorem garden_is_restored :
    ∃ after, (chartOf house = .ok houseBuilt.chart ∧
      (Entries.keys (houseLeft.snapshot 0).history).Nodup ∧
      houseBuilt.restore (houseLeft.snapshot 0) = (.ok (), after)) ∧
    houseBuilt.chart.IsCoherent after.status ∧ after.status.isFinal = true ∧
      houseBuilt.chart.idOf 2 = "back" ∧
      (after.status.history.find? 2).map houseBuilt.chart.idsOf = some ["attic"] := by
  have comesAbout : ComesAbout house houseLeft := comesAbout_houseAfter (by simp)
  have isChart : chartOf house = .ok houseBuilt.chart :=
    (comesAbout_houseAfter (by simp)).chartOf_eq
  have distinct : (Entries.keys (houseLeft.snapshot 0).history).Nodup := by decide +kernel
  have stands := comesAbout.stands isChart
  have isStatus := statusOf_snapshot (Chart.isExecutable_of_chartOf comesAbout.chartOf_eq)
    (stands.chart_eq ▸ stands.nameable) 0
  rw [stands.chart_eq] at isStatus
  have restored := restore_eq_ok_iff.2 ⟨_, isStatus, by decide +kernel, rfl⟩
  obtain ⟨-, -, -, records, final, -, coherent⟩ :=
    restore_takes_records_as_named isChart distinct restored
  exact ⟨_, ⟨isChart, distinct, restored⟩, coherent houseLeft 0 comesAbout rfl,
    final.trans (by decide +kernel), by decide +kernel,
    (records 2 (by decide +kernel)).trans (by decide +kernel)⟩

/-- A snapshot of a machine in the garden, the end of the house, that is not final and from
which nothing or the garden itself is to be returned to. -/
def forgedSnapshot : Snapshot :=
  { houseBuilt.snapshot 0 with
    configuration := ["garden"]
    history := [("back", []), ("front", ["garden"])]
    done := []
    isFinal := false }

/-- Restoring accepts a deep record of nothing, a shallow record of what is no child of the
owner, and a machine that is not final where a final state at the top is active. -/
theorem restore_accepts_what_does_not_fit :
    ∃ after, chartOf house = .ok houseBuilt.chart ∧
      (Entries.keys forgedSnapshot.history).Nodup ∧
      houseBuilt.restore forgedSnapshot = (.ok (), after) ∧
      (houseBuilt.chart.IsHistoryOf .deep 1 2 ∧ after.status.history.find? 2 = some []) ∧
      (houseBuilt.chart.IsHistoryOf .shallow 1 3 ∧ after.status.history.find? 3 = some [6] ∧
        ¬ houseBuilt.chart.IsRecordable .shallow 1 6) ∧
      ¬ (after.status.isFinal = true ↔
        houseBuilt.chart.HasFinalChild (after.status.active houseBuilt.chart) rootId) := by
  have isChart : chartOf house = .ok houseBuilt.chart :=
    (comesAbout_houseAfter (by simp)).chartOf_eq
  have executable := Chart.isExecutable_of_chartOf isChart
  let records : List (NodeId × List NodeId) := [(2, []), (3, [6])]
  have nameable : houseBuilt.chart.AreNameable records := by
    unfold Chart.AreNameable Chart.IsStateOrParallel
    decide +kernel
  have named : records.map houseBuilt.chart.nameRecord = forgedSnapshot.history := by
    decide +kernel
  have areRecords := Chart.foldlM_findRecord executable nameable ∅
  rw [named] at areRecords
  have areLeaves : houseBuilt.chart.findStates forgedSnapshot.configuration = .ok [6] := by
    refine executable.findStates_eq_ok_iff.2 ⟨?_, by decide +kernel⟩
    exact (nameable (3, [6]) (by simp [records])).2
  have restored := restore_eq_ok_iff.2 ⟨_, Chart.statusOf_eq_ok_iff.2
    ⟨rfl, _, _, _, areLeaves, areRecords, rfl, rfl⟩, by decide +kernel, rfl⟩
  refine ⟨_, isChart, by decide, restored, ⟨⟨⟨some 0, by decide +kernel⟩, by decide +kernel⟩, rfl⟩,
    ⟨⟨⟨some 1, by decide +kernel⟩, by decide +kernel⟩, rfl, by decide +kernel⟩, fun told => ?_⟩
  have final : houseBuilt.chart.HasFinalChild (houseBuilt.chart.active (.ofList [6])) rootId := by
    unfold Chart.HasFinalChild
    decide +kernel
  exact absurd (told.2 final) Bool.false_ne_true

end Machine

end Statechart
