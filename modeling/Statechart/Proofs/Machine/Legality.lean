import Statechart.Proofs.Machine.Run
import Statechart.Proofs.Microstep.Agreement

/-!
# Machines stand legally

A started machine stands in a legal configuration whatever it has been asked so
far, and an operation that fails leaves the machine where it stood.  A reset is
the exception: it forgets where the machine stood before it can fail.
-/

namespace Statechart

namespace World

/-! ## Steps of the world -/

theorem isLegal_of_microstep {program : Program} (tree : program.chart.IsTree)
    {world after : World} {initial : Option TransitionId} {events : List Event}
    {transitions : List TransitionId}
    (done : world.microstep program initial events = .ok (transitions, after)) :
    program.chart.IsLegalConfiguration after.status.leaves := by
  obtain ⟨asked, -, -, resolution, resolved, carries⟩ := exists_carriesOut_of_microstep done
  obtain ⟨reached, -, noViolations, rfl⟩ := Chart.resolve_eq_ok_iff.1 resolved
  rw [carries.leaves_eq]
  exact tree.violations_eq_nil_iff.1 noViolations

/-- A macrostep ends in a legal configuration if it begins in one, or if at least
one microstep is taken. -/
theorem isLegal_of_macrostep {program : Program} (tree : program.chart.IsTree) {limit : Nat}
    {world after : World} {initial : Option TransitionId} {report : Macrostep}
    (idle : world.status.isFinal = true ∨ limit = 0 →
      program.chart.IsLegalConfiguration world.status.leaves)
    (ran : world.macrostep program limit initial = .ok (report, after)) :
    program.chart.IsLegalConfiguration after.status.leaves := by
  refine of_macrostep (fun before next quiet legal => ?_) (fun before next events transitions _ =>
    isLegal_of_microstep tree) (fun before next events transitions _ =>
    isLegal_of_microstep tree) idle ran
  rw [quiet.status_eq]
  exact legal

end World

namespace Machine

variable {chart : Chart} {limit : Nat} {machine : Machine}

/-- A machine that stands in a legal configuration once it is started, and nowhere
before that. -/
structure StandsLegally (chart : Chart) (limit : Nat) (machine : Machine) : Prop where
  chart_eq : machine.chart = chart
  limit_eq : machine.settings.maxMicrosteps = limit
  legal : machine.isStarted = true → chart.IsLegalConfiguration machine.status.leaves
  status_eq : machine.isStarted = false → machine.status = {}

namespace StandsLegally

theorem of_isPrepared {settings : InterpreterSettings}
    (prepared : machine.IsPrepared chart settings) :
    StandsLegally chart settings.maxMicrosteps machine where
  chart_eq := prepared.chart_eq
  limit_eq := congrArg InterpreterSettings.maxMicrosteps prepared.settings_eq
  legal started := absurd (prepared.notStarted.symm.trans started) Bool.false_ne_true
  status_eq _ := prepared.status_eq

/-- Changes of the world that leave its status alone do not matter. -/
theorem withWorld (stands : StandsLegally chart limit machine) {world : World}
    (status : world.status = machine.status) :
    StandsLegally chart limit { machine with world } where
  chart_eq := stands.chart_eq
  limit_eq := stands.limit_eq
  legal started := by
    show chart.IsLegalConfiguration world.status.leaves
    rw [status]
    exact stands.legal started
  status_eq notStarted := status.trans (stands.status_eq notStarted)

theorem restarted (stands : StandsLegally chart limit machine) {world : World}
    (status : world.status = {}) :
    StandsLegally chart limit { machine with world, isStarted := false } where
  chart_eq := stands.chart_eq
  limit_eq := stands.limit_eq
  legal started := absurd started Bool.false_ne_true
  status_eq _ := status

variable (tree : chart.IsTree)
include tree

theorem start (atLeastOne : 1 ≤ limit) (stands : StandsLegally chart limit machine) :
    StandsLegally chart limit machine.start.2 := by
  rcases machine.start_cases with ⟨-, result⟩ | ⟨notStarted, ⟨report, world, ran, result⟩ |
    ⟨fault, world, status, result⟩⟩
  · rw [result]
    exact stands
  · rw [result]
    obtain rfl := stands.chart_eq
    refine ⟨rfl, stands.limit_eq, fun _ => ?_, fun flag => absurd flag.symm Bool.false_ne_true⟩
    apply World.isLegal_of_macrostep tree _ ran
    rintro (isFinal | isZero)
    · rw [show machine.world.status = {} from stands.status_eq notStarted] at isFinal
      cases isFinal
    · rw [stands.limit_eq] at isZero
      exact absurd isZero (Nat.ne_of_gt atLeastOne)
  · rw [result]
    exact stands.withWorld status

theorem step (stands : StandsLegally chart limit machine) :
    StandsLegally chart limit machine.step.2 := by
  rcases machine.step_cases with ⟨outcome, result⟩ | ⟨started, ⟨report, world, ran, result⟩ |
    ⟨fault, world, status, result⟩⟩
  · rw [result]
    exact stands
  · rw [result]
    obtain rfl := stands.chart_eq
    refine ⟨rfl, stands.limit_eq, fun _ => ?_, fun flag => ?_⟩
    · exact World.isLegal_of_macrostep tree (fun _ => stands.legal started) ran
    · exact absurd (flag.symm.trans started) Bool.false_ne_true
  · rw [result]
    exact stands.withWorld status

omit tree in
theorem push (stands : StandsLegally chart limit machine) (event : Event) :
    StandsLegally chart limit (machine.push event) :=
  stands.withWorld rfl

omit tree in
theorem cancelService (stands : StandsLegally chart limit machine) (id : String) :
    StandsLegally chart limit (machine.cancelService id).2 := by
  obtain ⟨world, quiet, cancelled⟩ := quiet_cancelService machine id
  rw [cancelled]
  exact stands.withWorld quiet.status_eq

theorem restore (stands : StandsLegally chart limit machine) (snapshot : Snapshot) :
    StandsLegally chart limit (machine.restore snapshot).2 := by
  unfold Machine.restore
  dsimp only
  split
  · exact stands
  · next status _ =>
      split
      · next noViolations =>
          rw [stands.chart_eq] at noViolations
          exact ⟨stands.chart_eq, stands.limit_eq,
            fun _ => tree.violations_eq_nil_iff.1 noViolations,
            fun flag => absurd flag.symm Bool.false_ne_true⟩
      · exact stands.withWorld (World.Solitary.reportViolations _ _ _).status_eq

/-- Every operation keeps the machine standing legally, whether or not it fails. -/
theorem perform (atLeastOne : 1 ≤ limit) (stands : StandsLegally chart limit machine)
    (operation : Operation) : StandsLegally chart limit (machine.perform operation).2 := by
  cases operation with
  | start => exact start tree atLeastOne stands
  | step => exact step tree stands
  | fire event => exact step tree (stands.push event)
  | push event => exact stands.push event
  | cancelService id => exact stands.cancelService id
  | reset =>
      let emptied : World :=
        { machine.world.cancelAll machine.chart with status := {}, inbox := [] }
      have restarted : StandsLegally chart limit
          { machine with world := emptied, isStarted := false } := stands.restarted rfl
      exact start tree atLeastOne restarted
  | restore snapshot => exact restore tree stands snapshot

theorem performAll (atLeastOne : 1 ≤ limit) (stands : StandsLegally chart limit machine)
    (operations : List Operation) : StandsLegally chart limit (machine.performAll operations) := by
  induction operations generalizing machine with
  | nil => exact stands
  | cons operation rest ih => exact ih (perform tree atLeastOne stands operation)

end StandsLegally

/-! ## Failures -/

/-- What a failed operation must leave alone. -/
def StandsAs (after before : Machine) : Prop :=
  after.isStarted = before.isStarted ∧ after.status = before.status

theorem standsAs_of_start {fault : Fault} {after : Machine}
    (failed : machine.start = (.error fault, after)) : after.StandsAs machine := by
  rcases machine.start_cases with ⟨-, result⟩ | ⟨-, ⟨report, world, -, result⟩ |
    ⟨_, world, status, result⟩⟩
  all_goals rw [result] at failed
  · cases (Prod.mk.inj failed).1
  · cases (Prod.mk.inj failed).1
  · obtain ⟨-, rfl⟩ := Prod.mk.inj failed
    exact ⟨rfl, status⟩

theorem standsAs_of_step {fault : Fault} {after : Machine}
    (failed : machine.step = (.error fault, after)) : after.StandsAs machine := by
  rcases machine.step_cases with ⟨outcome, result⟩ | ⟨-, ⟨report, world, -, result⟩ |
    ⟨_, world, status, result⟩⟩
  all_goals rw [result] at failed
  · obtain ⟨-, rfl⟩ := Prod.mk.inj failed
    exact ⟨rfl, rfl⟩
  · cases (Prod.mk.inj failed).1
  · obtain ⟨-, rfl⟩ := Prod.mk.inj failed
    exact ⟨rfl, status⟩

theorem standsAs_of_restore {snapshot : Snapshot} {fault : Fault} {after : Machine}
    (failed : machine.restore snapshot = (.error fault, after)) : after.StandsAs machine := by
  unfold restore at failed
  dsimp only at failed
  split at failed
  · obtain ⟨-, rfl⟩ := Prod.mk.inj failed
    exact ⟨rfl, rfl⟩
  · split at failed
    · cases (Prod.mk.inj failed).1
    · obtain ⟨-, rfl⟩ := Prod.mk.inj failed
      exact ⟨rfl, (World.Solitary.reportViolations _ _ _).status_eq⟩

/-- An operation that fails leaves the machine where it stood, a reset apart. -/
theorem standsAs_of_perform {operation : Operation} {fault : Fault} {after : Machine}
    (notReset : operation ≠ .reset)
    (failed : machine.perform operation = (.error fault, after)) : after.StandsAs machine := by
  cases operation with
  | start => exact standsAs_of_start (eq_error_of_map failed)
  | step => exact standsAs_of_step (eq_error_of_map failed)
  | fire event =>
      have stepped : (machine.push event).step = (.error fault, after) := eq_error_of_map failed
      exact ⟨(standsAs_of_step stepped).1, (standsAs_of_step stepped).2⟩
  | push event => cases (Prod.mk.inj failed).1
  | cancelService id => cases (Prod.mk.inj failed).1
  | reset => exact absurd rfl notReset
  | restore snapshot => exact standsAs_of_restore failed

/-- Whatever a machine has been asked, it stands in a legal configuration once it is
started, and the next operation leaves it where it stands if it fails. -/
theorem isLegal_after_operations {definition : Definition} {model : DataModel}
    {settings : InterpreterSettings} {services : List (String × Service)} {machine : Machine}
    (prepared : prepare definition model settings services = .ok machine)
    (atLeastOne : 1 ≤ settings.maxMicrosteps) (operations : List Operation) :
    chartOf definition = .ok (machine.performAll operations).chart ∧
      ((machine.performAll operations).isStarted = true →
        (machine.performAll operations).chart.IsLegalConfiguration
          (machine.performAll operations).status.leaves) ∧
      ∀ operation fault after, operation ≠ .reset →
        (machine.performAll operations).perform operation = (.error fault, after) →
          after.isStarted = (machine.performAll operations).isStarted ∧
            after.status = (machine.performAll operations).status := by
  obtain ⟨chart, isChart, isPrepared⟩ := exists_isPrepared prepared
  have tree := (Chart.isExecutable_of_chartOf isChart).tree
  have stands := (StandsLegally.of_isPrepared isPrepared).performAll tree atLeastOne operations
  rw [stands.chart_eq]
  exact ⟨isChart, stands.legal, fun _ _ _ => standsAs_of_perform⟩

/-- A machine that comes to a crossroads when it is started. -/
def crossroadsMachine : Machine :=
  preparedOrEmpty Chart.crossroads {} {} []

/-- After its start the machine stands at the crossroads, and it still does so when it
has been told to part. -/
theorem isLegal_at_crossroads :
    prepare Chart.crossroads {} {} [] = .ok crossroadsMachine ∧
      1 ≤ ({} : InterpreterSettings).maxMicrosteps ∧
      (crossroadsMachine.performAll [.start]).isStarted = true ∧
      (crossroadsMachine.performAll [.start]).chart.IsLegalConfiguration
        (crossroadsMachine.performAll [.start]).status.leaves ∧
      ∃ fault after, (crossroadsMachine.performAll [.start]).perform (.fire { name := "part" }) =
          (.error fault, after) ∧ after.isStarted = true ∧
        after.status = (crossroadsMachine.performAll [.start]).status := by
  have prepared : prepare Chart.crossroads {} {} [] = .ok crossroadsMachine :=
    prepare_eq_ok (by decide +kernel)
  have started : (crossroadsMachine.performAll [.start]).isStarted = true := by decide +kernel
  have fails : ((crossroadsMachine.performAll [.start]).perform
      (.fire { name := "part" })).1.isOk = false := by
    decide +kernel
  obtain ⟨-, legal, keeps⟩ := isLegal_after_operations prepared (by decide) [.start]
  refine ⟨prepared, by decide, started, legal started, ?_⟩
  cases outcome : (crossroadsMachine.performAll [.start]).perform (.fire { name := "part" }) with
  | mk result after =>
      rw [outcome] at fails
      cases result with
      | ok done => cases fails
      | error fault =>
          obtain ⟨flag, status⟩ := keeps _ fault after Operation.noConfusion outcome
          exact ⟨fault, after, rfl, flag.trans started, status⟩

end Machine

end Statechart
