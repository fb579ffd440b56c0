import Statechart.Proofs.Machine.Recording
import Statechart.Proofs.Chart.Evaluation

/-!
# Expansions in machines

What a history leads to is known only when a machine runs: its default targets, or what
it has recorded.  As long as no history leads back to itself with the records of a
machine, every list of nodes is worked off after finitely many iterations, whatever has
been reached before, and the rounds in which regions are filled come to an end as well.
-/

namespace Statechart

namespace Machine

variable {definition : Definition} {chart : Chart} {history : NodeMap (List NodeId)}

/-- With the records of a machine, and if no history leads back to itself, every worklist runs
empty, and so all expansions come to an end.  No region is missing then. -/
theorem expansions_end (accepted : chartOf definition = .ok chart)
    (parallels : chart.ParallelsHaveChildren) (recorded : IsRecorded definition history)
    (noCircle : ∀ id, (chart.node id).isHistory = true → ¬ chart.LeadsBack history id) :
    (∀ agenda : Agenda, ∃ iterations after,
      agenda.iterate chart history iterations = ⟨after, []⟩ ∧
        chart.expandNodes history agenda.reached agenda.pending = some after) ∧
    ∀ (residual : NodeSet) (seeds : List NodeId), ∃ after,
      chart.expand history residual seeds = some after ∧
        chart.missingRegions after.leaves = [] := by
  have executable := Chart.isExecutable_of_chartOf accepted
  have records := (recorded.isValid accepted parallels).1
  have ends := executable.ends_of_histories records noCircle
  constructor
  · intro agenda
    obtain ⟨after, done⟩ : ∃ after,
        chart.expandNodes history agenda.reached agenda.pending = some after :=
      Chart.exists_foldlM_expandNode_iff.2 fun id _ => ends id
    obtain ⟨iterations, isAfter⟩ := (Agenda.exists_iterate_eq_iff executable records).2 done
    exact ⟨iterations, after, isAfter, done⟩
  · intro residual seeds
    obtain ⟨after, done⟩ : ∃ after, chart.expand history residual seeds = some after :=
      executable.exists_expand records parallels (fun region _ => ends region)
        fun seed _ => ends seed
    obtain ⟨reached, -, others⟩ := Option.bind_eq_some_iff.1 done
    exact ⟨after, done, Chart.missingRegions_of_fillRegions others⟩

/-! ## A library -/

/-- A library with a room that is entered where it was left, a table at first.  From the street
one returns to the hall or the room, whichever it was. -/
def library : Definition :=
  { states := [
      { id := some "library", histories := [{ id := some "again", kind := .shallow }],
        transitions := [{ event := some "close", target := some "street" }], states := [
        { id := some "hall", transitions := [{ event := some "enter", target := some "room" }] },
        { id := some "room", initial := some "place",
          histories := [{ id := some "place", kind := .deep, target := some "table" }],
          states := [
            { id := some "table", transitions := [
              { event := some "search", target := some "shelf" }] },
            { id := some "shelf" }] }] },
      { id := some "street", transitions := [
        { event := some "open", target := some "again" }] }] }

/-- The library after it was closed on someone at the shelf. -/
def libraryClosed : Machine :=
  (preparedOrEmpty library {} {} []).performAll
    [.start, .fire { name := "enter" }, .fire { name := "search" }, .fire { name := "close" }]

/-- The nodes of the closed library, each after what it leads to. -/
def libraryRank (id : NodeId) : Nat :=
  [7, 5, 4, 2, 3, 1].idxOf id

/-- Through the records of both histories one returns to the shelf. -/
theorem library_is_worked_off :
    (chartOf library = .ok libraryClosed.chart ∧ libraryClosed.chart.ParallelsHaveChildren ∧
      IsRecorded library libraryClosed.status.history ∧
      ∀ id, (libraryClosed.chart.node id).isHistory = true →
        ¬ libraryClosed.chart.LeadsBack libraryClosed.status.history id) ∧
    ∃ iterations after,
      Agenda.iterate libraryClosed.chart libraryClosed.status.history
        ⟨{ leaves := ∅ }, [2]⟩ iterations = ⟨after, []⟩ ∧ after.leaves.toList = [7] := by
  have comesAbout : ComesAbout library libraryClosed := by
    have prepared : ComesAbout library (preparedOrEmpty library {} {} []) :=
      .prepared (prepare_eq_ok (by decide +kernel))
    exact prepared.performAll (by simp)
  -- The machine is run once for all that is read off it.
  obtain ⟨withChildren, ranked, after⟩ :
      libraryClosed.chart.nodes.all
        (fun node => !node.isParallel || !node.children.isEmpty) = true ∧
      (List.range libraryClosed.chart.nodeCount).all (fun id =>
        (libraryClosed.chart.leadsTo libraryClosed.status.history id).all
          (fun next => decide (libraryRank next < libraryRank id))) = true ∧
      (libraryClosed.chart.expandNodes libraryClosed.status.history { leaves := ∅ } [2]).map
        (fun reached => reached.leaves.toList) = some [7] := by
    decide +kernel
  have parallels := Chart.parallelsHaveChildren_of_all withChildren
  have noCircle := Chart.not_leadsBack_of_rank (Chart.lt_of_leadsOn_of_all ranked)
  obtain ⟨iterations, last, isLast, done⟩ := (expansions_end comesAbout.chartOf_eq parallels
    (.standing comesAbout) fun id _ => noCircle id).1 ⟨{ leaves := ∅ }, [2]⟩
  rw [done] at after
  exact ⟨⟨comesAbout.chartOf_eq, parallels, .standing comesAbout, fun id _ => noCircle id⟩,
    iterations, last, isLast, Option.some.inj after⟩

end Machine

end Statechart
