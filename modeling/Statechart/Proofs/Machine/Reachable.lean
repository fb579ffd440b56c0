import Statechart.Proofs.Machine.Snapshots
import Statechart.Proofs.Microstep.Progress

/-!
# Machines that can be reached

Operations lead from a prepared machine to others, whether or not they fail, and so do
snapshots that were taken of such machines.  To restore one of these is to stand where
the other machine stood, so what every microstep keeps holds of all machines that come
about, whatever their settings.
-/

namespace Statechart

namespace Turn.IsTaken

variable {program : Program} {turn : Turn}

/-- The microstep of a turn.  The initial transition is taken only where nothing is active. -/
theorem exists_step_in_world (taken : turn.IsTaken program) :
    ∃ (before after : World) (initial : Option TransitionId) (events : List Event),
      before.status = turn.before ∧
      (initial.isSome = true → ¬ ∃ leaf, leaf ∈ before.status.leaves) ∧
      before.microstep program initial events = .ok (turn.transitions, after) ∧
      after.generated.toList = turn.generated ∧ after.status = turn.after := by
  obtain ⟨-, before, initial, events, after, isBefore, fresh, done, generated, isAfter⟩ := taken
  refine ⟨before, after, initial, events, isBefore, ?_, done, generated, isAfter⟩
  rintro isSome ⟨leaf, isLeaf⟩
  rw [isBefore, fresh isSome] at isLeaf
  exact NodeSet.not_mem_empty leaf isLeaf

variable (executable : program.chart.IsExecutable)
  (regular : program.chart.IsRegular turn.before) (taken : turn.IsTaken program)
include executable regular taken

/-- Where something is active, the transitions of a turn start at active states. -/
theorem isActive_source (occupied : ∃ leaf, leaf ∈ turn.before.leaves) :
    ∀ id ∈ turn.transitions,
      (program.chart.transition id).source ∈ program.chart.active turn.before.leaves := by
  obtain ⟨before, after, initial, events, isBefore, nowhere, done, -, -⟩ :=
    taken.exists_step_in_world
  rw [← isBefore] at regular occupied ⊢
  exact World.isActive_source_of_microstep executable regular nowhere done occupied

theorem exists_advances (parallels : program.chart.ParallelsHaveChildren) :
    ∃ (resolution : Resolution) (before left after : World), before.status = turn.before ∧
      World.Advances program.chart turn.transitions resolution before left after ∧
      after.generated.toList = turn.generated ∧ after.status = turn.after := by
  obtain ⟨before, after, initial, events, isBefore, nowhere, done, generated, isAfter⟩ :=
    taken.exists_step_in_world
  rw [← isBefore] at regular
  obtain ⟨resolution, left, advances⟩ :=
    World.exists_advances_of_microstep executable parallels regular nowhere done
  exact ⟨resolution, before, left, after, isBefore, advances, generated, isAfter⟩

end Turn.IsTaken

theorem Turn.IsTaken.isRegular {program : Program} (executable : program.chart.IsExecutable)
    (parallels : program.chart.ParallelsHaveChildren) {turn : Turn}
    (taken : turn.IsTaken program) (regular : program.chart.IsRegular turn.before) :
    program.chart.IsRegular turn.after := by
  obtain ⟨resolution, before, left, after, isBefore, advances, -, isAfter⟩ :=
    taken.exists_advances executable regular parallels
  rw [← isBefore] at regular
  rw [← isAfter]
  exact advances.isRegular executable regular

namespace Machine

/-- The machines that come about from a definition. -/
inductive ComesAbout (definition : Definition) : Machine → Prop
  | prepared {model : DataModel} {settings : InterpreterSettings}
      {services : List (String × Service)} {machine : Machine}
      (prepared : prepare definition model settings services = .ok machine) :
      ComesAbout definition machine
  | performed {machine : Machine} (comesAbout : ComesAbout definition machine)
      (operation : Operation) (notRestore : ∀ snapshot, operation ≠ .restore snapshot) :
      ComesAbout definition (machine.perform operation).2
  | restored {machine other : Machine} (comesAbout : ComesAbout definition machine)
      (isOther : ComesAbout definition other) (time : Int64) :
      ComesAbout definition (machine.restore (other.snapshot time)).2

namespace ComesAbout

variable {definition : Definition} {machine : Machine} {chart : Chart}

theorem stands (comesAbout : ComesAbout definition machine)
    (isChart : chartOf definition = .ok chart) : StandsNameably chart machine := by
  have executable := Chart.isExecutable_of_chartOf isChart
  induction comesAbout with
  | prepared prepared =>
      obtain ⟨other, isOther, isPrepared⟩ := exists_isPrepared prepared
      obtain rfl := Except.ok.inj (isOther.symm.trans isChart)
      exact standsNameably_of_isPrepared isPrepared
  | performed _ operation _ ih => exact ih.perform executable operation
  | @restored machine other _ _ time ih _ =>
      exact ih.perform executable (.restore (other.snapshot time))

theorem performAll (comesAbout : ComesAbout definition machine) {operations : List Operation}
    (notRestore : ∀ operation ∈ operations, ∀ snapshot, operation ≠ .restore snapshot) :
    ComesAbout definition (machine.performAll operations) := by
  induction operations generalizing machine with
  | nil => exact comesAbout
  | cons operation rest ih =>
      exact ih (comesAbout.performed operation (notRestore operation List.mem_cons_self))
        fun other later => notRestore other (List.mem_cons_of_mem _ later)

theorem exists_chart (comesAbout : ComesAbout definition machine) :
    ∃ chart, chartOf definition = .ok chart := by
  induction comesAbout with
  | prepared prepared =>
      obtain ⟨chart, isChart, -⟩ := exists_isPrepared prepared
      exact ⟨chart, isChart⟩
  | performed _ _ _ ih => exact ih
  | restored _ _ _ ih _ => exact ih

theorem chartOf_eq (comesAbout : ComesAbout definition machine) :
    chartOf definition = .ok machine.chart := by
  obtain ⟨chart, isChart⟩ := comesAbout.exists_chart
  rw [(comesAbout.stands isChart).chart_eq]
  exact isChart

/-- Restoring a snapshot of a machine that comes about leaves a machine where it stands, or
puts it where the other one stood. -/
theorem status_restore {other : Machine} (comesAbout : ComesAbout definition machine)
    (isOther : ComesAbout definition other) (time : Int64) :
    (machine.restore (other.snapshot time)).2.status = machine.status ∨
      (machine.restore (other.snapshot time)).2.status = other.status := by
  obtain ⟨chart, isChart⟩ := comesAbout.exists_chart
  have executable := Chart.isExecutable_of_chartOf isChart
  have here := comesAbout.stands isChart
  have there := isOther.stands isChart
  rcases machine.restore_cases (other.snapshot time) with ⟨status, found, -, result⟩ |
    ⟨_, world, quiet, result⟩
  · rw [result]
    rw [← there.chart_eq] at executable
    have named := statusOf_snapshot executable (there.chart_eq ▸ there.nameable) time
    rw [there.chart_eq, ← here.chart_eq] at named
    exact .inr (Except.ok.inj (found.symm.trans named))
  · rw [result]
    exact .inl quiet.status_eq

/-- What holds of a machine that stands nowhere and is kept by every turn holds of all
machines that come about. -/
theorem keeps {Holds : Status → Prop} (isChart : chartOf definition = .ok chart)
    (fresh : Holds {})
    (turns : ∀ (program : Program) (turn : Turn), program.chart = chart →
      turn.IsTaken program → Holds turn.before → Holds turn.after)
    (comesAbout : ComesAbout definition machine) : Holds machine.status := by
  induction comesAbout with
  | prepared prepared =>
      obtain ⟨_, -, isPrepared⟩ := exists_isPrepared prepared
      rw [isPrepared.status_eq]
      exact fresh
  | performed comesAbout operation notRestore ih =>
      have stands := comesAbout.stands isChart
      exact (keeps_of_perform (fun turn => turns _ turn stands.chart_eq) fresh stands.settled ih
        notRestore).2
  | restored comesAbout isOther time here there =>
      rcases comesAbout.status_restore isOther time with same | same
      · rw [same]
        exact here
      · rw [same]
        exact there

/-- What is so kept holds before every turn of an operation as well. -/
theorem keeps_before {Holds : Status → Prop} (isChart : chartOf definition = .ok chart)
    (fresh : Holds {})
    (turns : ∀ (program : Program) (turn : Turn), program.chart = chart →
      turn.IsTaken program → Holds turn.before → Holds turn.after)
    (comesAbout : ComesAbout definition machine) (operation : Operation) :
    ∀ turn ∈ machine.turnsOf operation, turn.IsTaken machine.program ∧ Holds turn.before := by
  have stands := comesAbout.stands isChart
  have holds := comesAbout.keeps isChart fresh turns
  by_cases restores : ∃ snapshot, operation = .restore snapshot
  · obtain ⟨snapshot, rfl⟩ := restores
    exact fun turn member => absurd member List.not_mem_nil
  · exact (keeps_of_perform (fun turn => turns _ turn stands.chart_eq) fresh stands.settled holds
      fun snapshot same => restores ⟨snapshot, same⟩).1

theorem isRegular (comesAbout : ComesAbout definition machine)
    (parallels : machine.chart.ParallelsHaveChildren) :
    machine.chart.IsRegular machine.status := by
  have executable := Chart.isExecutable_of_chartOf comesAbout.chartOf_eq
  refine comesAbout.keeps comesAbout.chartOf_eq machine.chart.isRegular_empty
    fun program turn same taken regular => ?_
  rw [← same] at executable parallels regular ⊢
  exact taken.isRegular executable parallels regular

/-- Every turn of an operation, too, begins where a microstep can be followed. -/
theorem isRegular_before (comesAbout : ComesAbout definition machine)
    (parallels : machine.chart.ParallelsHaveChildren) {operation : Operation} {turn : Turn}
    (member : turn ∈ machine.turnsOf operation) :
    turn.IsTaken machine.program ∧ machine.chart.IsRegular turn.before := by
  have executable := Chart.isExecutable_of_chartOf comesAbout.chartOf_eq
  refine comesAbout.keeps_before comesAbout.chartOf_eq machine.chart.isRegular_empty
    (fun program turn same taken regular => ?_) operation turn member
  rw [← same] at executable parallels regular ⊢
  exact taken.isRegular executable parallels regular

end ComesAbout

/-- The machines that come about where every macrostep may take a microstep at least. -/
inductive IsReachable (definition : Definition) : Machine → Prop
  | prepared {model : DataModel} {settings : InterpreterSettings}
      {services : List (String × Service)} {machine : Machine}
      (prepared : prepare definition model settings services = .ok machine)
      (atLeastOne : 1 ≤ settings.maxMicrosteps) : IsReachable definition machine
  | performed {machine : Machine} (reachable : IsReachable definition machine)
      (operation : Operation) (notRestore : ∀ snapshot, operation ≠ .restore snapshot) :
      IsReachable definition (machine.perform operation).2
  | restored {machine other : Machine} (reachable : IsReachable definition machine)
      (isOther : IsReachable definition other) (time : Int64) :
      IsReachable definition (machine.restore (other.snapshot time)).2

namespace IsReachable

variable {definition : Definition} {machine : Machine} {chart : Chart}

theorem comesAbout (reachable : IsReachable definition machine) :
    ComesAbout definition machine := by
  induction reachable with
  | prepared prepared _ => exact .prepared prepared
  | performed _ operation notRestore ih => exact ih.performed operation notRestore
  | restored _ _ time ih isOther => exact ih.restored isOther time

theorem performAll (reachable : IsReachable definition machine) {operations : List Operation}
    (notRestore : ∀ operation ∈ operations, ∀ snapshot, operation ≠ .restore snapshot) :
    IsReachable definition (machine.performAll operations) := by
  induction operations generalizing machine with
  | nil => exact reachable
  | cons operation rest ih =>
      exact ih (reachable.performed operation (notRestore operation List.mem_cons_self))
        fun other later => notRestore other (List.mem_cons_of_mem _ later)

theorem chartOf_eq (reachable : IsReachable definition machine) :
    chartOf definition = .ok machine.chart :=
  reachable.comesAbout.chartOf_eq

theorem keeps {Holds : Status → Prop} (isChart : chartOf definition = .ok chart)
    (fresh : Holds {})
    (turns : ∀ (program : Program) (turn : Turn), program.chart = chart →
      turn.IsTaken program → Holds turn.before → Holds turn.after)
    (reachable : IsReachable definition machine) : Holds machine.status :=
  reachable.comesAbout.keeps isChart fresh turns

theorem keeps_before {Holds : Status → Prop} (isChart : chartOf definition = .ok chart)
    (fresh : Holds {})
    (turns : ∀ (program : Program) (turn : Turn), program.chart = chart →
      turn.IsTaken program → Holds turn.before → Holds turn.after)
    (reachable : IsReachable definition machine) (operation : Operation) :
    ∀ turn ∈ machine.turnsOf operation, turn.IsTaken machine.program ∧ Holds turn.before :=
  reachable.comesAbout.keeps_before isChart fresh turns operation

end IsReachable

end Machine

end Statechart
