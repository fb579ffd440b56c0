import Statechart.Proofs.Machine.Presence
import Statechart.Proofs.Machine.Reachable
import Statechart.Proofs.Microstep.Returning

/-!
# What histories bring back

Along operations that all succeed, each microstep begins where the one before it has
ended, and a history keeps what it recorded when its owner was last exited.  So a
microstep that does nothing but return through a history makes the leaves below its
owner, or the children of its owner, those that were active before that exit.
-/

namespace Statechart

namespace Machine

/-! ## Turns of operations that succeed -/

variable {machine after : Machine}

theorem turnsOf_of_ok (settled : machine.IsSettled) {operation : Operation}
    (ordinary : operation.isOrdinary = true) (done : machine.perform operation = (.ok (), after)) :
    (Turn.AreConsecutive machine.status (machine.turnsOf operation) ∧
      ∀ turn ∈ machine.turnsOf operation, turn.IsTaken machine.program) ∧
    after.status = Turn.finish machine.status (machine.turnsOf operation) := by
  have notRestore : ∀ snapshot, operation ≠ .restore snapshot := by
    rintro snapshot rfl
    cases ordinary
  have stands : machine.statusFor operation = machine.status := by
    cases operation with
    | reset => cases ordinary
    | _ => rfl
  obtain ⟨turns, finishes, -⟩ := turnsOf_spec settled notRestore
  rw [done, stands] at finishes
  exact ⟨stands ▸ turns, finishes rfl⟩

/-- Ordinary operations that succeed lead where their turns lead. -/
theorem turnsAlong_spec (settled : machine.IsSettled) {operations : List Operation}
    (ordinary : ∀ operation ∈ operations, operation.isOrdinary = true)
    (done : machine.performUntilFault operations = .ok after) :
    (Turn.AreConsecutive machine.status (machine.turnsAlong operations) ∧
      ∀ turn ∈ machine.turnsAlong operations, turn.IsTaken machine.program) ∧
    after.status = Turn.finish machine.status (machine.turnsAlong operations) := by
  induction operations generalizing machine with
  | nil =>
      cases done
      exact ⟨⟨trivial, fun _ member => absurd member List.not_mem_nil⟩, rfl⟩
  | cons operation rest ih =>
      unfold Machine.performUntilFault at done
      split at done
      · next next performed =>
          have succeeds := machine.succeeds_perform operation
          obtain ⟨⟨consecutive, taken⟩, leads⟩ :=
            turnsOf_of_ok settled (ordinary operation List.mem_cons_self) performed
          rw [performed] at succeeds
          obtain ⟨⟨others, othersTaken⟩, last⟩ := ih (succeeds.settled settled)
            (fun other later => ordinary other (List.mem_cons_of_mem _ later)) done
          rw [turnsAlong, performed]
          refine ⟨⟨Turn.areConsecutive_append.2 ⟨consecutive, leads ▸ others⟩,
            fun turn member => ?_⟩, ?_⟩
          · rcases List.mem_append.1 member with isFirst | isLater
            · exact taken turn isFirst
            · exact succeeds.program_eq ▸ othersTaken turn isLater
          · rw [Turn.finish_append, ← leads]
            exact last
      · cases done

end Machine

/-! ## What a history remembers -/

/-- A status in which something is active and a history has a given record. -/
structure Chart.Remembers (chart : Chart) (history : NodeId) (record : List NodeId)
    (status : Status) : Prop where
  regular : chart.IsRegular status
  occupied : ∃ leaf, leaf ∈ status.leaves
  found : status.history.find? history = some record

namespace Turn

variable {program : Program} (executable : program.chart.IsExecutable)
  (parallels : program.chart.ParallelsHaveChildren) {turn : Turn}
  (taken : turn.IsTaken program)
include executable parallels taken

variable {history owner : NodeId} {kind : HistoryKind} {default : Option TransitionId}
  (isHistory : (program.chart.node history).kind = .history kind default)
  (isOwner : program.chart.parent history = some owner)
include isHistory isOwner

/-- After a turn something is active, and a history has a new record just if the turn left its
owner. -/
theorem IsTaken.records (regular : program.chart.IsRegular turn.before) :
    (∃ leaf, leaf ∈ turn.after.leaves) ∧ turn.after.history.find? history =
      if owner ∈ program.chart.leavesBehind turn.before.leaves turn.transitions then
        some (World.recordOf program.chart turn.before.leaves owner kind)
      else turn.before.history.find? history := by
  obtain ⟨resolution, before, middle, after, isBefore, advances, -, isAfter⟩ :=
    taken.exists_advances executable regular parallels
  have legal := advances.leads.legal
  rw [← advances.carries.leaves_eq, isAfter] at legal
  have found := World.find?_recordsAfter executable.tree isHistory isOwner before.status resolution
  rw [← advances.carries.history_eq, isAfter, isBefore] at found
  simp only [Chart.mem_exited_iff advances.resolves, isBefore] at found
  exact ⟨legal.exists_mem executable.tree, found⟩

theorem IsTaken.remembers_of_left (regular : program.chart.IsRegular turn.before)
    (left : owner ∈ program.chart.leavesBehind turn.before.leaves turn.transitions) :
    program.chart.Remembers history
      (World.recordOf program.chart turn.before.leaves owner kind) turn.after := by
  obtain ⟨occupied, found⟩ := taken.records executable parallels isHistory isOwner regular
  rw [if_pos left] at found
  exact ⟨taken.isRegular executable parallels regular, occupied, found⟩

theorem IsTaken.remembers {record : List NodeId}
    (remembers : program.chart.Remembers history record turn.before)
    (stays : ¬ owner ∈ program.chart.leavesBehind turn.before.leaves turn.transitions) :
    program.chart.Remembers history record turn.after := by
  obtain ⟨occupied, found⟩ :=
    taken.records executable parallels isHistory isOwner remembers.regular
  rw [if_neg stays, remembers.found] at found
  exact ⟨taken.isRegular executable parallels remembers.regular, occupied, found⟩

/-- A turn that only returns through a history brings back what it remembers. -/
theorem IsTaken.returns {recorded : NodeSet}
    (wasLegal : program.chart.IsLegalConfiguration recorded)
    (wasActive : owner ∈ program.chart.active recorded)
    (remembers : program.chart.Remembers history
      (World.recordOf program.chart recorded owner kind) turn.before)
    {id : TransitionId} (only : turn.transitions = [id])
    (targets : (program.chart.transition id).targets = [history]) :
    (kind = .deep → ∀ leaf,
      (leaf ∈ turn.after.leaves ∧ program.chart.isDescendant leaf owner = true) ↔
        (leaf ∈ recorded ∧ program.chart.isDescendant leaf owner = true)) ∧
    (kind = .shallow → ∀ child ∈ (program.chart.node owner).children,
      (child ∈ program.chart.active turn.after.leaves ↔
        child ∈ program.chart.active recorded)) := by
  have isSource := taken.isActive_source executable remembers.regular remembers.occupied id
    (only ▸ List.mem_singleton_self id)
  have returns : program.chart.IsReturn turn.before.history recorded turn.before.leaves id
      history owner kind :=
    { legal := remembers.regular.legal remembers.occupied
      isSource, targets, isOwner, isHistory := ⟨default, isHistory⟩, wasLegal, wasActive
      found := remembers.found, valid := remembers.regular.records }
  obtain ⟨resolution, before, middle, after, isBefore, advances, -, isAfter⟩ :=
    taken.exists_advances executable remembers.regular parallels
  have resolves := advances.resolves
  rw [only, isBefore] at resolves
  have leaves : turn.after.leaves = resolution.after := by
    rw [← isAfter, advances.carries.leaves_eq]
  rw [leaves]
  constructor
  · rintro rfl
    exact returns.mem_after_iff executable resolves
  · rintro rfl
    exact returns.mem_active_after_iff executable parallels resolves

end Turn

namespace Machine

/-- After operations that all succeed, none a reset or a restore: when a microstep does
nothing but return through a history, just those leaves are active below the owner of the
history, or those children of the owner if it is shallow, that were active before the
owner was last exited. -/
theorem history_brings_back {definition : Definition} {model : DataModel}
    {settings : InterpreterSettings} {services : List (String × Service)}
    {machine after : Machine}
    (prepared : prepare definition model settings services = .ok machine)
    (parallels : machine.chart.ParallelsHaveChildren) {operations : List Operation}
    (ordinary : ∀ operation ∈ operations, operation.isOrdinary = true)
    (done : machine.performUntilFault operations = .ok after)
    {earlier middle later : List Turn} {leaving returning : Turn}
    (turns : machine.turnsAlong operations =
      earlier ++ leaving :: (middle ++ returning :: later))
    {history owner : NodeId} {kind : HistoryKind} {default : Option TransitionId}
    (isHistory : (machine.chart.node history).kind = .history kind default)
    (isOwner : machine.chart.parent history = some owner)
    (left : owner ∈ machine.chart.leavesBehind leaving.before.leaves leaving.transitions)
    (stays : ∀ turn ∈ middle,
      ¬ owner ∈ machine.chart.leavesBehind turn.before.leaves turn.transitions)
    {id : TransitionId} (only : returning.transitions = [id])
    (targets : (machine.chart.transition id).targets = [history]) :
    (kind = .deep → ∀ leaf,
      (leaf ∈ returning.after.leaves ∧ machine.chart.isDescendant leaf owner = true) ↔
        (leaf ∈ leaving.before.leaves ∧ machine.chart.isDescendant leaf owner = true)) ∧
    (kind = .shallow → ∀ child ∈ (machine.chart.node owner).children,
      (child ∈ returning.after.active machine.chart ↔
        child ∈ leaving.before.active machine.chart)) := by
  obtain ⟨chart, isChart, isPrepared⟩ := exists_isPrepared prepared
  have executable : machine.program.chart.IsExecutable := by
    rw [show machine.program.chart = chart from isPrepared.chart_eq]
    exact Chart.isExecutable_of_chartOf isChart
  obtain ⟨⟨consecutive, taken⟩, -⟩ := turnsAlong_spec isPrepared.isSettled ordinary done
  have fresh : machine.program.chart.IsRegular machine.status := by
    rw [isPrepared.status_eq]
    exact Chart.isRegular_empty _
  have regular := (consecutive.keeps fresh fun turn member =>
    (taken turn member).isRegular executable parallels).1
  rw [turns] at consecutive taken regular
  have isLeaving : leaving ∈ earlier ++ leaving :: (middle ++ returning :: later) :=
    List.mem_append_right _ List.mem_cons_self
  have isMiddle : ∀ turn ∈ middle, turn ∈ earlier ++ leaving :: (middle ++ returning :: later) :=
    fun turn member =>
      List.mem_append_right _ (List.mem_cons_of_mem _ (List.mem_append_left _ member))
  have isReturning : returning ∈ earlier ++ leaving :: (middle ++ returning :: later) :=
    List.mem_append_right _ (List.mem_cons_of_mem _ (List.mem_append_right _ List.mem_cons_self))
  -- The owner was active where it was exited, and its history remembers that.
  have wasActive := (Chart.mem_leavesBehind.1 left).1
  obtain ⟨-, leaf, wasLeaf, -⟩ := executable.tree.mem_active.1 wasActive
  have wasLegal := (regular leaving isLeaving).legal ⟨leaf, wasLeaf⟩
  have recorded := (taken leaving isLeaving).remembers_of_left executable parallels isHistory
    isOwner (regular leaving isLeaving) left
  obtain ⟨-, -, following⟩ := Turn.areConsecutive_append.1 consecutive
  obtain ⟨between, isNext, -⟩ := Turn.areConsecutive_append.1 following
  have remembers := (between.keeps recorded fun turn member remembers =>
    (taken turn (isMiddle turn member)).remembers executable parallels isHistory isOwner remembers
      (stays turn member)).2
  rw [← isNext] at remembers
  exact (taken returning isReturning).returns executable parallels isHistory isOwner wasLegal
    wasActive remembers only targets

/-- Someone who reads and writes, pauses, and goes on where the pause began. -/
def study : Definition :=
  { states := [
      { id := some "study", histories := [{ id := some "page", kind := .deep }],
        transitions := [{ event := some "pause", target := some "rest" }], states := [
        { id := some "first", transitions := [
          { event := some "turn", target := some "second" }] },
        { id := some "second", states := [
          { id := some "reading", transitions := [
            { event := some "note", target := some "writing" }] },
          { id := some "writing" }] }] },
      { id := some "rest", transitions := [
        { event := some "resume", target := some "page" }] }] }

def studying : Machine :=
  preparedOrEmpty study {} {} []

def studyDay : List Operation :=
  [.start, .fire { name := "turn" }, .fire { name := "note" }, .fire { name := "pause" },
    .fire { name := "resume" }]

/-- Whoever pauses while writing is writing again after the rest. -/
theorem study_is_resumed :
    (prepare study {} {} [] = .ok studying ∧ studying.chart.ParallelsHaveChildren ∧
      (∀ operation ∈ studyDay, operation.isOrdinary = true) ∧
      ∃ after, studying.performUntilFault studyDay = .ok after) ∧
    ∃ (earlier middle later : List Turn) (leaving returning : Turn),
      studying.turnsAlong studyDay = earlier ++ leaving :: (middle ++ returning :: later) ∧
      (∃ default, (studying.chart.node 2).kind = .history .deep default) ∧
      studying.chart.parent 2 = some 1 ∧
      1 ∈ studying.chart.leavesBehind leaving.before.leaves leaving.transitions ∧
      (∀ turn ∈ middle, ¬ 1 ∈ studying.chart.leavesBehind turn.before.leaves turn.transitions) ∧
      returning.transitions = [4] ∧ (studying.chart.transition 4).targets = [2] ∧
      studying.chart.idOf 6 = "writing" ∧ leaving.before.leaves = .ofList [6] ∧
      6 ∈ returning.after.leaves := by
  have prepared : prepare study {} {} [] = .ok studying := prepare_eq_ok (by decide +kernel)
  have parallels : studying.chart.ParallelsHaveChildren :=
    Chart.parallelsHaveChildren_of_all (by decide +kernel)
  have ordinary : ∀ operation ∈ studyDay, operation.isOrdinary = true := by decide
  obtain ⟨after, done⟩ : ∃ after, studying.performUntilFault studyDay = .ok after := by
    cases outcome : studying.performUntilFault studyDay with
    | ok after => exact ⟨after, rfl⟩
    | error fault =>
        have succeeds : (studying.performUntilFault studyDay).isOk = true := by decide +kernel
        rw [outcome] at succeeds
        cases succeeds
  -- The turns, each by the leaves that it begins with and the transitions that it takes.
  have shape : (studying.turnsAlong studyDay).map (fun turn =>
      (turn.before.leaves, turn.transitions)) =
        [(∅, [5]), (.ofList [3], []), (.ofList [3], [2]), (.ofList [5], []), (.ofList [5], [3]),
          (.ofList [6], [])] ++ (.ofList [6], [1]) ::
          ([(.ofList [7], [])] ++ (.ofList [7], [4]) :: [(.ofList [6], [])]) := by
    decide +kernel
  obtain ⟨earlier, rest, turns, -, shape⟩ := List.map_eq_append_iff.1 shape
  obtain ⟨leaving, rest, rfl, isLeaving, shape⟩ := List.map_eq_cons_iff.1 shape
  obtain ⟨middle, rest, rfl, isMiddle, shape⟩ := List.map_eq_append_iff.1 shape
  obtain ⟨returning, later, rfl, isReturning, -⟩ := List.map_eq_cons_iff.1 shape
  obtain ⟨wasWriting, pauses⟩ := Prod.mk.inj isLeaving
  have resumes : returning.transitions = [4] := (Prod.mk.inj isReturning).2
  have left : 1 ∈ studying.chart.leavesBehind leaving.before.leaves leaving.transitions := by
    rw [wasWriting, pauses]
    decide +kernel
  have stays : ∀ turn ∈ middle,
      ¬ 1 ∈ studying.chart.leavesBehind turn.before.leaves turn.transitions := by
    intro turn member
    have isRest := isMiddle ▸ List.mem_map_of_mem (f := fun turn : Turn =>
      (turn.before.leaves, turn.transitions)) member
    obtain ⟨resting, waits⟩ := Prod.mk.inj (List.mem_singleton.1 isRest)
    rw [resting, waits]
    decide +kernel
  obtain ⟨default, isHistory⟩ :
      ∃ default, (studying.chart.node 2).kind = .history .deep default :=
    ⟨some 0, by decide +kernel⟩
  have isOwner : studying.chart.parent 2 = some 1 := by decide +kernel
  have targets : (studying.chart.transition 4).targets = [2] := by decide +kernel
  have back := (history_brings_back prepared parallels ordinary done turns isHistory isOwner left
    stays resumes targets).1 rfl 6
  refine ⟨⟨prepared, parallels, ordinary, after, done⟩, earlier, middle, later, leaving, returning,
    turns, ⟨default, isHistory⟩, isOwner, left, stays, resumes, targets, by decide +kernel,
    wasWriting, ?_⟩
  refine (back.2 ⟨?_, by decide +kernel⟩).1
  rw [wasWriting]
  decide

end Machine

end Statechart
