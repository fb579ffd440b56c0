import Statechart.Proofs.Chart.Evaluation
import Statechart.Proofs.Machine.Snapshots
import Statechart.Proofs.Machine.Twins
import Statechart.Proofs.Snapshot

/-!
# Going on from a snapshot

A snapshot of a started machine can be written and read again.  Restored on any machine for
the same definition it puts that one where the first one stood.  If nothing is invoked, both
go on alike from there: apart from where they stand only the context, the settings and the
events that wait decide what a machine does.
-/

namespace Statechart

namespace Machine

def withModel (machine : Machine) (model : DataModel) : Machine :=
  { machine with world := { machine.world with model } }

/-- The machines that a host can have for a definition.  Between operations the host may put
another data model in place, or another context into it; the guards that a data model brings
along are what their texts say. -/
inductive IsRunOf (definition : Definition) : Machine → Prop
  | prepared {model : DataModel} {settings : InterpreterSettings}
      {services : List (String × Service)} {machine : Machine} (sound : model.IsSound)
      (prepared : prepare definition model settings services = .ok machine) :
      IsRunOf definition machine
  | performed {machine : Machine} (isRun : IsRunOf definition machine) (operation : Operation) :
      IsRunOf definition (machine.perform operation).2
  | given {machine : Machine} (isRun : IsRunOf definition machine) {model : DataModel}
      (sound : model.IsSound) : IsRunOf definition (machine.withModel model)

namespace IsRunOf

variable {definition : Definition} {machine other : Machine}

theorem performAll (isRun : IsRunOf definition machine) (operations : List Operation) :
    IsRunOf definition (machine.performAll operations) := by
  induction operations generalizing machine with
  | nil => exact isRun
  | cons operation rest ih => exact ih (isRun.performed operation)

theorem stands (isRun : IsRunOf definition machine) :
    ∃ chart, chartOf definition = .ok chart ∧ StandsNameably chart machine ∧
      (1 ≤ machine.settings.maxMicrosteps →
        StandsLegally chart machine.settings.maxMicrosteps machine) := by
  induction isRun with
  | prepared _ prepared =>
      obtain ⟨chart, isChart, isPrepared⟩ := exists_isPrepared prepared
      refine ⟨chart, isChart, standsNameably_of_isPrepared isPrepared, fun _ => ?_⟩
      rw [isPrepared.settings_eq]
      exact .of_isPrepared isPrepared
  | @performed machine _ operation ih =>
      obtain ⟨chart, isChart, nameably, legally⟩ := ih
      have executable := Chart.isExecutable_of_chartOf isChart
      refine ⟨chart, isChart, nameably.perform executable operation, ?_⟩
      rw [(succeeds_perform machine operation).settings_eq]
      exact fun atLeastOne => (legally atLeastOne).perform executable.tree atLeastOne operation
  | given _ _ ih =>
      obtain ⟨chart, isChart, nameably, legally⟩ := ih
      exact ⟨chart, isChart, ⟨nameably.chart_eq, nameably.settled, nameably.nameable⟩,
        fun atLeastOne => (legally atLeastOne).withWorld rfl⟩

/-- A machine has with itself in common what decides about its future.  This says that its
data model is sound and that no service runs. -/
theorem alike (isRun : IsRunOf definition machine)
    (invokesNothing : machine.chart.InvokesNothing) : machine.Alike machine := by
  induction isRun with
  | prepared sound prepared =>
      have world := world_of_prepare prepared
      refine ⟨invokesNothing, rfl, rfl, rfl, ?_⟩
      rw [world]
      exact ⟨⟨rfl, sound, sound⟩, rfl, rfl, rfl, rfl⟩
  | @performed machine _ operation ih =>
      have chart : (machine.perform operation).2.chart = machine.chart :=
        congrArg Program.chart (succeeds_perform machine operation).program_eq
      -- An operation keeps a machine alike to another one, and so to itself.
      exact ((ih (chart ▸ invokesNothing)).perform operation).related
  | given _ sound ih =>
      have same := ih invokesNothing
      exact same.withWorlds ⟨⟨rfl, sound, sound⟩, rfl, rfl, same.world.idle_first,
        same.world.idle_second⟩

/-- A snapshot of a started machine can be restored on any other one for the definition. -/
theorem restore_snapshot (isRun : IsRunOf definition machine) (isOther : IsRunOf definition other)
    (atLeastOne : 1 ≤ machine.settings.maxMicrosteps) (started : machine.isStarted = true)
    (time : Int64) :
    other.chart = machine.chart ∧ other.restore (machine.snapshot time) =
      (.ok (), { other with
        world := { other.world.cancelAll other.chart with status := machine.status }
        isStarted := true }) := by
  obtain ⟨chart, isChart, nameably, legally⟩ := isRun.stands
  obtain ⟨_, isSame, there, -⟩ := isOther.stands
  obtain rfl := Except.ok.inj (isSame.symm.trans isChart)
  have executable := Chart.isExecutable_of_chartOf isChart
  have legal := (legally atLeastOne).legal started
  have sameChart : other.chart = machine.chart := there.chart_eq.trans nameably.chart_eq.symm
  have found : other.chart.statusOf (machine.snapshot time) = .ok machine.status := by
    rw [sameChart]
    rw [← nameably.chart_eq] at executable
    exact statusOf_snapshot executable (nameably.chart_eq ▸ nameably.nameable) time
  have noViolations : other.chart.violations machine.status.leaves = [] := by
    rw [there.chart_eq]
    exact executable.tree.violations_eq_nil_iff.2 legal
  exact ⟨sameChart, restore_eq_ok_iff.2 ⟨_, found, noViolations, rfl⟩⟩

end IsRunOf

/-! ## Later requests -/

/-- What a host asks of a machine that runs. -/
inductive Request where
  | push (event : Event)
  | fire (event : Event)
  | step

/-- Does what is asked.  Yields what the host gets, which is nothing for a push. -/
def answer (machine : Machine) : Request → Option (Except Fault Macrostep) × Machine
  | .push event => (none, machine.push event)
  | .fire event => (machine.fire event).map some id
  | .step => machine.step.map some id

def answers : Machine → List Request → List (Option (Except Fault Macrostep))
  | _, [] => []
  | machine, request :: rest =>
    (machine.answer request).1 :: (machine.answer request).2.answers rest

def afterRequests (machine : Machine) (requests : List Request) : Machine :=
  requests.foldl (fun machine request => (machine.answer request).2) machine

namespace Alike

variable {first second : Machine}

theorem answer (alike : first.Alike second) (request : Request) :
    SameOutcome Alike (first.answer request) (second.answer request) := by
  cases request with
  | push event => exact ⟨rfl, alike.push event⟩
  | fire event => exact (alike.push event).step.map some
  | step => exact alike.step.map some

theorem answers_eq (alike : first.Alike second) (requests : List Request) :
    first.answers requests = second.answers requests := by
  induction requests generalizing first second with
  | nil => rfl
  | cons request rest ih =>
      have same := alike.answer request
      rw [answers, answers, same.result_eq, ih same.related]

theorem afterRequests (alike : first.Alike second) (requests : List Request) :
    (first.afterRequests requests).Alike (second.afterRequests requests) :=
  List.foldl_rel alike fun request _ _ _ alike => (alike.answer request).related

theorem configuration_eq (alike : first.Alike second) :
    first.configuration = second.configuration := by
  rw [configuration, configuration, alike.chart_eq, alike.status_eq]

end Alike

/-- A snapshot of a started machine reads as it was written.  Restored on any other machine
for the definition it puts that machine where the first one stands, and if nothing is invoked
both answer every later request alike and stay in one configuration, given that they have the
context, the settings and the events that wait in common. -/
theorem snapshot_resumes {definition : Definition} {machine other : Machine}
    (isRun : machine.IsRunOf definition) (isOther : other.IsRunOf definition)
    (atLeastOne : 1 ≤ machine.settings.maxMicrosteps) (started : machine.isStarted = true)
    (time : Int64) :
    Snapshot.ofJson? (machine.snapshot time).toJson = some (machine.snapshot time) ∧
    ∃ resumed, other.restore (machine.snapshot time) = (.ok (), resumed) ∧
      resumed.chart = machine.chart ∧ resumed.isStarted = true ∧
      resumed.status = machine.status ∧
      (machine.chart.InvokesNothing → resumed.settings = machine.settings →
        resumed.world.model.context = machine.world.model.context →
        resumed.world.inbox = machine.world.inbox →
        ∀ requests, resumed.answers requests = machine.answers requests ∧
          (resumed.afterRequests requests).configuration =
            (machine.afterRequests requests).configuration) := by
  refine ⟨Snapshot.ofJson?_toJson _, ?_⟩
  obtain ⟨chart, restored⟩ := isRun.restore_snapshot isOther atLeastOne started time
  refine ⟨_, restored, chart, rfl, rfl, ?_⟩
  intro invokesNothing settings context inbox requests
  have here := isRun.alike invokesNothing
  have there := (isOther.alike (chart ▸ invokesNothing)).restore (machine.snapshot time)
  rw [restored] at there
  have resumed := there.related
  have alike := Alike.mk resumed.invokesNothing chart settings started.symm
    ⟨⟨context, resumed.world.model.sound_first, here.world.model.sound_first⟩, rfl, inbox,
      resumed.world.idle_first, here.world.idle_first⟩
  exact ⟨alike.answers_eq requests, (alike.afterRequests requests).configuration_eq⟩

/-- A lamp that is switched on as bright as it was when it was switched off. -/
def lamp : Definition :=
  { states := [
      { id := some "on", histories := [{ id := some "last", kind := .shallow }],
        transitions := [{ event := some "switch", target := some "off" }], states := [
        { id := some "dim", transitions := [{ event := some "turn", target := some "bright" }] },
        { id := some "bright" }] },
      { id := some "off", transitions := [{ event := some "switch", target := some "last" }] }] }

def lampAfter (operations : List Operation) : Machine :=
  (preparedOrEmpty lamp {} {} []).performAll operations

def lampOff : Machine :=
  lampAfter [.start, .fire { name := "turn" }, .fire { name := "switch" }]

def lampDim : Machine :=
  lampAfter [.start]

theorem isRunOf_lampAfter (operations : List Operation) : (lampAfter operations).IsRunOf lamp := by
  have prepared : prepare lamp {} {} [] = .ok (preparedOrEmpty lamp {} {} []) :=
    prepare_eq_ok (by decide +kernel)
  exact (IsRunOf.prepared (DataModel.isSound_fresh .null) prepared).performAll operations

theorem eq_null_of_isNull {value : Json.Value} (isNull : value.isNull = true) : value = .null := by
  cases value <;> simp_all [Json.Value.isNull]

/-- A lamp that burns dimly takes over from one that was bright and is off by now: switched on,
it is bright. -/
theorem lamp_takes_over :
    (lampOff.IsRunOf lamp ∧ lampDim.IsRunOf lamp ∧ 1 ≤ lampOff.settings.maxMicrosteps ∧
      lampOff.isStarted = true ∧ lampOff.chart.InvokesNothing) ∧
    ∃ resumed, lampDim.restore (lampOff.snapshot 0) = (.ok (), resumed) ∧
      resumed.status = lampOff.status ∧
      (resumed.settings = lampOff.settings ∧
        resumed.world.model.context = lampOff.world.model.context ∧
        resumed.world.inbox = lampOff.world.inbox) ∧
      resumed.answers [.fire { name := "switch" }] = lampOff.answers [.fire { name := "switch" }] ∧
      lampDim.configuration = ["dim"] ∧
      (resumed.afterRequests [.fire { name := "switch" }]).configuration = ["bright"] := by
  have isRun : lampOff.IsRunOf lamp := isRunOf_lampAfter _
  have isOther : lampDim.IsRunOf lamp := isRunOf_lampAfter _
  have atLeastOne : 1 ≤ lampOff.settings.maxMicrosteps := by decide +kernel
  have started : lampOff.isStarted = true := by decide +kernel
  have invokesNothing : lampOff.chart.InvokesNothing := by
    intro node
    have none := Chart.forall_node_of_all (fun node => node.invocation.isNone) rfl
      (show lampOff.chart.nodes.all _ = true by decide +kernel) node
    exact Option.isNone_iff_eq_none.1 none
  obtain ⟨-, resumed, restored, -, -, status, goesOn⟩ :=
    snapshot_resumes isRun isOther atLeastOne started 0
  obtain rfl := (Prod.mk.inj (restored.symm.trans
    (isRun.restore_snapshot isOther atLeastOne started 0).2)).2
  have settings : lampDim.settings = lampOff.settings := by decide +kernel
  have context : (lampDim.world.cancelAll lampDim.chart).model.context =
      lampOff.world.model.context := by
    have here : lampOff.world.model.context.isNull = true := by decide +kernel
    have there : (lampDim.world.cancelAll lampDim.chart).model.context.isNull = true := by
      decide +kernel
    rw [eq_null_of_isNull here, eq_null_of_isNull there]
  have inbox : (lampDim.world.cancelAll lampDim.chart).inbox = lampOff.world.inbox := by
    have here : lampOff.world.inbox.isEmpty = true := by decide +kernel
    have there : (lampDim.world.cancelAll lampDim.chart).inbox.isEmpty = true := by decide +kernel
    rw [List.isEmpty_iff.1 here, List.isEmpty_iff.1 there]
  obtain ⟨answers, configuration⟩ := goesOn invokesNothing settings context inbox
    [.fire { name := "switch" }]
  refine ⟨⟨isRun, isOther, atLeastOne, started, invokesNothing⟩, _, restored, rfl,
    ⟨settings, context, inbox⟩, answers, by decide +kernel, configuration.trans ?_⟩
  decide +kernel

end Machine

end Statechart
