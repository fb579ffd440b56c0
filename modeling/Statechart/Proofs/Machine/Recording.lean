import Statechart.Proofs.Machine.Reachable

/-!
# What the histories of a machine have recorded

Whenever a state is exited, its histories record a part of the configuration, which is
legal.  So whatever operations and snapshots have led a machine to where it stands, its
records are not empty and lie below the owners of the histories, and different nodes of
a record part in a parallel.
-/

namespace Statechart

namespace Chart

/-- The anchors of different nodes of a record part in a parallel. -/
def RecordsPart (chart : Chart) (history : NodeMap (List NodeId)) : Prop :=
  ∀ id, (chart.node id).isHistory = true → ∀ recorded, history.find? id = some recorded →
    ∀ first ∈ recorded, ∀ second ∈ recorded, first ≠ second → chart.AnchorsPart first second

end Chart

namespace World

section Records

variable {chart : Chart} {leaves : NodeSet} (executable : chart.IsExecutable)
include executable

/-- What is recorded of a legal configuration parts in parallels. -/
theorem anchorsPart_of_mem_recordOf (legal : chart.IsLegalConfiguration leaves)
    {owner first second : NodeId} {kind : HistoryKind}
    (isFirst : first ∈ recordOf chart leaves owner kind)
    (isSecond : second ∈ recordOf chart leaves owner kind) (different : first ≠ second) :
    chart.AnchorsPart first second := by
  have tree := executable.tree
  cases kind with
  | deep =>
      have firstLeaf := (mem_recordOf_deep.1 isFirst).1
      have secondLeaf := (mem_recordOf_deep.1 isSecond).1
      have inside : ∀ leaf ∈ leaves, leaf < chart.nodeCount := fun leaf isLeaf =>
        (tree.isNode_of_isState (Chart.isState_of_isAtomic (legal.atomic leaf isLeaf))).2
      rw [Chart.AnchorsPart, Chart.anchor_of_isAtomic (legal.atomic first firstLeaf),
        Chart.anchor_of_isAtomic (legal.atomic second secondLeaf)]
      apply (tree.areOrthogonal_iff (inside first firstLeaf) (inside second secondLeaf)).1
      exact executable.areOrthogonal_of_mem legal firstLeaf secondLeaf different
  | shallow =>
      obtain ⟨firstChild, firstActive⟩ := mem_recordOf_shallow.1 isFirst
      obtain ⟨secondChild, secondActive⟩ := mem_recordOf_shallow.1 isSecond
      have parted : chart.PartAt owner first second :=
        ⟨first, second, different, tree.parent_of_mem_children firstChild,
          tree.parent_of_mem_children secondChild, Chart.isWithin_refl first,
          Chart.isWithin_refl second⟩
      rw [Chart.AnchorsPart, Chart.anchor_of_mem_children tree firstChild,
        Chart.anchor_of_mem_children tree secondChild]
      exact ⟨owner, parted, legal.areCompatible tree firstActive secondActive owner parted⟩

/-- Records part in parallels after active states have been exited. -/
theorem recordsPart_recordsAfter {status : Status} (regular : chart.IsRegular status)
    (part : chart.RecordsPart status.history) {resolution : Resolution}
    (active : ∀ node ∈ resolution.exited, node ∈ chart.active status.leaves) :
    chart.RecordsPart (recordsAfter chart status resolution) := by
  have tree := executable.tree
  intro id isHistory recorded found
  have proper := tree.isProper_of_isHistory isHistory
  obtain ⟨owner, isOwner, -⟩ := tree.exists_parent id proper.1 proper.2
  cases isKind : (chart.node id).kind with
  | root _ => simp [Node.isHistory, isKind] at isHistory
  | state _ _ => simp [Node.isHistory, isKind] at isHistory
  | parallel => simp [Node.isHistory, isKind] at isHistory
  | history kind default =>
      rw [find?_recordsAfter tree isKind isOwner] at found
      split at found
      · next exited =>
          obtain rfl := Option.some.inj found
          obtain ⟨-, leaf, isLeaf, -⟩ := tree.mem_active.1 (active owner exited)
          intro first isFirst second isSecond
          exact anchorsPart_of_mem_recordOf executable (regular.legal ⟨leaf, isLeaf⟩) isFirst
            isSecond
      · exact part id isHistory recorded found

end Records

end World

namespace Machine

variable {definition : Definition} {chart : Chart} {history : NodeMap (List NodeId)}

/-- What the histories have recorded at some time: where a machine stands that comes about from
a definition, or before or after a turn of one of its operations. -/
inductive IsRecorded (definition : Definition) : NodeMap (List NodeId) → Prop
  | standing {machine : Machine} (comesAbout : ComesAbout definition machine) :
      IsRecorded definition machine.status.history
  | before {machine : Machine} (comesAbout : ComesAbout definition machine)
      {operation : Operation} {turn : Turn} (member : turn ∈ machine.turnsOf operation) :
      IsRecorded definition turn.before.history
  | after {machine : Machine} (comesAbout : ComesAbout definition machine)
      {operation : Operation} {turn : Turn} (member : turn ∈ machine.turnsOf operation) :
      IsRecorded definition turn.after.history

/-- A machine that was never started has recorded nothing. -/
theorem isRecorded_empty {model : DataModel} {settings : InterpreterSettings}
    {services : List (String × Service)} {machine : Machine}
    (prepared : prepare definition model settings services = .ok machine) :
    IsRecorded definition ∅ := by
  obtain ⟨_, -, isPrepared⟩ := exists_isPrepared prepared
  have recorded := IsRecorded.standing (.prepared prepared)
  rwa [isPrepared.status_eq] at recorded

/-- What a machine has recorded lies below the owners of the histories, and parts in parallels. -/
theorem IsRecorded.isValid (recorded : IsRecorded definition history)
    (accepted : chartOf definition = .ok chart) (parallels : chart.ParallelsHaveChildren) :
    chart.RecordsAreValid history ∧ chart.RecordsPart history := by
  have executable := Chart.isExecutable_of_chartOf accepted
  let Holds (status : Status) : Prop :=
    chart.IsRegular status ∧ chart.RecordsPart status.history
  have fresh : Holds {} := ⟨chart.isRegular_empty, fun _ _ _ found => by cases found⟩
  have turns : ∀ (program : Program) (turn : Turn), program.chart = chart →
      turn.IsTaken program → Holds turn.before → Holds turn.after := by
    rintro program turn rfl taken ⟨regular, part⟩
    refine ⟨taken.isRegular executable parallels regular, ?_⟩
    obtain ⟨resolution, before, left, after, isBefore, advances, -, isAfter⟩ :=
      taken.exists_advances executable regular parallels
    rw [← isBefore] at regular part
    rw [← isAfter, advances.carries.history_eq]
    exact World.recordsPart_recordsAfter executable regular part
      advances.leads.isActive_of_exited
  have isValid : ∀ {status : Status}, Holds status →
      chart.RecordsAreValid status.history ∧ chart.RecordsPart status.history :=
    fun holds => ⟨holds.1.records, holds.2⟩
  cases recorded with
  | standing comesAbout => exact isValid (comesAbout.keeps accepted fresh turns)
  | before comesAbout member =>
      exact isValid (comesAbout.keeps_before accepted fresh turns _ _ member).2
  | after comesAbout member =>
      obtain ⟨taken, holds⟩ := comesAbout.keeps_before accepted fresh turns _ _ member
      have same := Except.ok.inj (comesAbout.chartOf_eq.symm.trans accepted)
      exact isValid (turns _ _ same taken holds)

end Machine

end Statechart
