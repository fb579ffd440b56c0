import Statechart.Proofs.Machine.Inbox
import Statechart.Proofs.Machine.Legality
import Statechart.Proofs.Microstep.Standstill

/-!
# Quiescence

A macrostep goes on until a microstep takes no transition and generates no event.  That leaves
the world at rest, whatever the microstep has processed, finalized and started.  So if no event
waits, the next step finds out that there is nothing to do, and changes nothing.
-/

namespace Statechart

namespace Attempt

/-- A microstep in which no action runs and no service is called: nothing is finalized, no
transition is taken, no state is exited or entered, and no active state waits for a service. -/
structure IsIdle (program : Program) (attempt : Attempt) : Prop where
  finalizes : attempt.world.finalizing program.chart attempt.events = []
  takes : ∃ after, attempt.outcome program = .ok ([], after)
  stays : program.chart.resolve attempt.world.status.history attempt.world.status.leaves [] =
    .ok (.staying attempt.world.status.leaves)
  starts : ∀ node ∈ attempt.world.active program,
    World.awaitsStart program.chart attempt.world.services node = false

/-- Whether a microstep takes no transition and generates no event. -/
def findsNothing (program : Program) (attempt : Attempt) : Bool :=
  match attempt.outcome program with
  | .ok (transitions, next) => transitions.isEmpty && next.generated.isEmpty
  | .error _ => false

theorem exists_of_findsNothing {program : Program} {attempt : Attempt}
    (finds : attempt.findsNothing program = true) :
    ∃ next, attempt.outcome program = .ok ([], next) ∧ next.generated.toList = [] := by
  unfold findsNothing at finds
  split at finds
  · next transitions next outcome =>
      simp only [Bool.and_eq_true, List.isEmpty_iff, Array.isEmpty_iff] at finds
      obtain ⟨rfl, none⟩ := finds
      exact ⟨next, outcome, by rw [none]⟩
  · cases finds

end Attempt

namespace World

variable {program : Program} (tree : program.chart.IsTree)
include tree

/-! ## Coming to rest -/

/-- Microsteps of which the last one takes no transition and generates no event end at rest. -/
theorem isAtRest_of_course (free : program.chart.IsEventFree) {limit : Nat}
    {first last : Attempt} {attempts : List Attempt} {after next : World}
    {done report : Macrostep}
    (legal : first.initial = none → program.chart.IsLegalConfiguration first.world.status.leaves)
    (course : Attempt.Course program limit first done attempts (.ok (report, after)))
    (isLast : attempts.getLast? = some last) (sound : last.world.model.IsSound)
    (outcome : last.outcome program = .ok ([], next))
    (noneGenerated : next.generated.toList = []) : after.IsAtRest program := by
  generalize succeeded : Except.ok (report, after) = result at course
  induction course with
  | final | limited => cases isLast
  | givenUp => cases succeeded
  | @last _ attempt _ _ _ _ stepped =>
      cases succeeded
      obtain rfl : attempt = last := Option.some.inj isLast
      obtain ⟨rfl, rfl⟩ := Prod.mk.inj (Except.ok.inj (stepped.symm.trans outcome))
      have isNone : attempt.initial = none := initial_eq_none_of_microstep outcome
      rw [Attempt.outcome, isNone] at outcome
      have rest := isAtRest_of_microstep tree free sound (legal isNone) outcome
      exact ⟨rest.sound, rest.legal, rest.covered, rest.noneEnabled⟩
  | @more _ attempt done transitions reached others _ _ stepped goesOn course ih =>
      rw [List.getLast?_cons] at isLast
      cases isLater : others.getLast? with
      | some other =>
          rw [isLater] at isLast
          cases isLast
          have taken : attempt.world.microstep program attempt.initial attempt.events =
              .ok (transitions, reached) := stepped
          have legalNext := isLegal_of_microstep tree taken
          exact ih (fun _ => legalNext) isLater succeeded
      | none =>
          -- The last microstep would be one after which another has been asked for.
          rw [isLater] at isLast
          cases isLast
          obtain ⟨rfl, rfl⟩ := Prod.mk.inj (Except.ok.inj (stepped.symm.trans outcome))
          rw [noneGenerated] at goesOn
          cases goesOn

/-! ## Staying at rest -/

theorem IsAtRest.isIdle {world : World} (rest : world.IsAtRest program) :
    Attempt.IsIdle program ⟨world, none, []⟩ where
  finalizes := world.finalizing_nil program.chart
  takes := by
    obtain ⟨after, stepped, -⟩ := rest.microstep tree
    exact ⟨after, stepped⟩
  stays := Chart.resolve_nil tree rest.legal world.status.history
  starts _ := awaitsStart_of_cover rest.covered

/-- At rest, the first of the microsteps that may be taken without events is the last one. -/
theorem IsAtRest.microsteps {world : World} (rest : world.IsAtRest program)
    (notFinal : world.status.isFinal = false) (remaining : Nat) :
    ∃ after, Ponders { world with generated := #[] } after ∧
      World.microsteps program (remaining + 1) world none [] {} =
        .ok (⟨1, #[]⟩, after.observe (.microstep 1 0 0)) ∧
      Attempt.series program (remaining + 1) ⟨world, none, []⟩ {} = [⟨world, none, []⟩] := by
  obtain ⟨after, stepped, ponders⟩ := rest.microstep tree
  have noneGenerated : after.generated = #[] := ponders.generated_eq
  have outcome : Attempt.outcome program ⟨world, none, []⟩ = .ok ([], after) := stepped
  have course := Attempt.course_microsteps program (remaining + 1) ⟨world, none, []⟩ {}
  refine ⟨after, ponders, ?_⟩
  generalize World.microsteps program (remaining + 1) world none [] {} = result at course ⊢
  generalize Attempt.series program (remaining + 1) ⟨world, none, []⟩ {} = attempts at course ⊢
  cases course with
  | final isFinal => cases notFinal.symm.trans isFinal
  | givenUp _ failed => cases outcome.symm.trans failed
  | last _ same =>
      obtain ⟨rfl, rfl⟩ := Prod.mk.inj (Except.ok.inj (outcome.symm.trans same))
      rw [Macrostep.extend, Attempt.following, noneGenerated]
      exact ⟨rfl, rfl⟩
  | more _ same goesOn =>
      obtain ⟨rfl, rfl⟩ := Prod.mk.inj (Except.ok.inj (outcome.symm.trans same))
      rw [noneGenerated] at goesOn
      cases goesOn

omit tree in
theorem opening_of_inbox_eq_nil {world : World} (empty : world.inbox = []) (program : Program) :
    world.opening program none = ([], { world with inbox := [], generated := #[] }) := by
  unfold opening
  rw [empty, if_neg (by decide)]
  unfold forwardBatch
  dsimp only
  rw [forwardAll_nil]
  rfl

end World

namespace Machine

/-- What a step does in which there is nothing to do: it finds that out in one microstep, of which
alone observers are told, after conditions that fail have been reported. -/
structure Idles (before after : Machine) : Prop where
  attempts : ∃ attempt, before.attemptsOf .step = [attempt] ∧ attempt.IsIdle before.program
  status_eq : after.status = before.status
  context_eq : after.world.model.context = before.world.model.context
  services_eq : after.world.services = before.world.services
  inbox_eq : after.world.inbox = before.world.inbox
  exists_reports : ∃ reports : List Report, (∀ report ∈ reports, report.code = .expressionError) ∧
    after.world.observations.toList =
      before.world.observations.toList ++ reports.map .reported ++ [.microstep 1 0 0]

/-- A machine at rest with no event waiting has nothing to do in a step. -/
theorem idles_of_isAtRest {machine : Machine} (tree : machine.chart.IsTree)
    (rest : machine.world.IsAtRest machine.program) (started : machine.isStarted = true)
    (notFinal : machine.status.isFinal = false) (empty : machine.world.inbox = [])
    (atLeastOne : 1 ≤ machine.settings.maxMicrosteps) :
    ∃ quiet, machine.step = (.ok ⟨1, #[]⟩, quiet) ∧ machine.Idles quiet := by
  let fresh : World := { machine.world with inbox := [], generated := #[] }
  have restFresh : fresh.IsAtRest machine.program :=
    ⟨rest.sound, rest.legal, rest.covered, rest.noneEnabled⟩
  obtain ⟨remaining, isLimit⟩ := Nat.exists_eq_add_of_le' atLeastOne
  obtain ⟨after, ponders, ran, alone⟩ := restFresh.microsteps tree notFinal remaining
  have begins : machine.stepBegun = some (machine, none) :=
    if_pos (by rw [started, notFinal]; rfl)
  have begun : machine.macrostepBegun .step = some (machine, none) := begins
  have opens : machine.opened none = ⟨fresh, none, []⟩ := by
    rw [opened, World.opening_of_inbox_eq_nil empty machine.program]
  obtain ⟨reports, codes, told⟩ := ponders.exists_reports
  refine ⟨{ machine with world := after.observe (.microstep 1 0 0) }, ?_, ⟨⟨fresh, none, []⟩, ?_,
    restFresh.isIdle tree⟩, ponders.status_eq, ponders.agree.context_eq.symm, ponders.services_eq,
    ponders.inbox_eq.trans empty.symm, reports, codes, ?_⟩
  · rw [step_of_begun begins, microsteps, opens, isLimit, ran, conclude, ← started]
  · rw [attemptsOf_of_begun begun, attemptsOfMacrostep, opens, isLimit]
    exact alone
  · exact Array.toList_push.trans (congrArg (· ++ [_]) told)

section Ending

variable {machine after : Machine} {report : Macrostep} {last : Attempt} {next : World}
  (tree : machine.chart.IsTree) (free : machine.chart.IsEventFree)
  (sound : last.world.model.IsSound) (outcome : last.outcome machine.program = .ok ([], next))
  (noneGenerated : next.generated.toList = [])
include tree free sound outcome noneGenerated

/-- A macrostep of which the last microstep takes no transition and generates no event leaves the
machine at rest. -/
theorem isAtRest_of_macrostepOf {operation : Operation}
    (rootInitial : machine.chart.root.initial.isSome = true)
    (legal : machine.isStarted = true →
      machine.chart.IsLegalConfiguration machine.status.leaves)
    (ended : machine.macrostepOf operation = some (.ok report, after))
    (isLast : (machine.attemptsOf operation).getLast? = some last) :
    after.world.IsAtRest machine.program ∧ after.isStarted = true := by
  cases isBegun : machine.macrostepBegun operation with
  | none =>
      rw [attemptsOf_of_idle isBegun] at isLast
      cases isLast
  | some macrostep =>
      obtain ⟨begun, initial⟩ := macrostep
      have begins := begins_of_begun isBegun
      obtain ⟨course, isOutcome⟩ := course_of_begun isBegun
      have opens : (begun.opened initial).world.status = begun.status :=
        (World.quiet_opening begun.world begun.program initial).status_eq
      have legalFirst : (begun.opened initial).initial = none →
          machine.chart.IsLegalConfiguration (begun.opened initial).world.status.leaves := by
        intro isNone
        rw [opens]
        rcases begins.initial_eq with ⟨-, started, stands⟩ | isRoot
        · rw [stands]
          exact legal started
        · have isNone : initial = none := isNone
          rw [← isRoot, isNone] at rootInitial
          cases rootInitial
      cases ran : begun.microsteps initial with
      | error failure =>
          rw [ran, ended] at isOutcome
          cases isOutcome
      | ok result =>
          obtain ⟨told, world⟩ := result
          rw [ran, ended] at isOutcome
          cases isOutcome
          rw [ran, begins.program_eq] at course
          exact ⟨World.isAtRest_of_course tree free legalFirst course isLast sound outcome
            noneGenerated, rfl⟩

end Ending

theorem succeeds_macrostepOf {machine after : Machine} {operation : Operation}
    {result : Except Fault Macrostep}
    (ended : machine.macrostepOf operation = some (result, after)) : Succeeds machine after := by
  have performs := succeeds_perform machine operation
  rw [perform_of_macrostepOf ended] at performs
  exact performs

/-- Where a microstep is begun at least one may be taken. -/
theorem atLeastOne_of_last {machine : Machine} {operation : Operation} {last : Attempt}
    (isLast : (machine.attemptsOf operation).getLast? = some last) :
    1 ≤ machine.settings.maxMicrosteps := by
  by_contra fewer
  have none : machine.settings.maxMicrosteps = 0 := Nat.lt_one_iff.1 (Nat.not_le.1 fewer)
  cases isBegun : machine.macrostepBegun operation with
  | none =>
      rw [attemptsOf_of_idle isBegun] at isLast
      cases isLast
  | some macrostep =>
      rw [attemptsOf_of_begun isBegun, attemptsOfMacrostep, (begins_of_begun isBegun).settings_eq,
        none] at isLast
      cases isLast

/-- When a machine is started, for the first time or anew, takes a step or is told of an event, and
the last microstep of that takes no transition and generates no event, then, unless the machine is
final or events wait, the next step is one in which there is nothing to do.  Transitions that await
no event must not look at it.  The data model may have evaluated guards before, as long as the ones
that it keeps are what their texts say. -/
theorem quiescent_machine_idles {definition : Definition} {model : DataModel}
    {settings : InterpreterSettings} {services : List (String × Service)} {begun after : Machine}
    {operations : List Operation} {operation : Operation} {report : Macrostep} {last : Attempt}
    {next : World} (prepared : prepare definition model settings services = .ok begun)
    (sound : model.IsSound) (free : begun.chart.IsEventFree)
    (ended : (begun.performAll operations).macrostepOf operation = some (.ok report, after))
    (isLast : ((begun.performAll operations).attemptsOf operation).getLast? = some last)
    (outcome : last.outcome begun.program = .ok ([], next))
    (noneGenerated : next.generated.toList = []) (notFinal : after.status.isFinal = false)
    (empty : after.world.inbox = []) :
    ∃ quiet, after.step = (.ok ⟨1, #[]⟩, quiet) ∧ after.Idles quiet := by
  obtain ⟨chart, isChart, isPrepared⟩ := exists_isPrepared prepared
  obtain rfl := isPrepared.chart_eq
  have tree := (Chart.isExecutable_of_chartOf isChart).tree
  have addressed := Chart.IsAccredited.isAddressed (.inl ⟨definition, isChart⟩)
  have isFresh := world_of_prepare prepared
  obtain ⟨finds, invoked⟩ := findsServices_of_fresh addressed isFresh
  have soundBegun : begun.world.model.IsSound := by
    rw [isFresh]
    exact sound
  obtain ⟨stillInvoked, stillSound⟩ := areInvoked_performAll finds invoked operations
  have succeeds := begun.succeeds_performAll operations
  have atLeastOne := atLeastOne_of_last isLast
  rw [succeeds.settings_eq, isPrepared.settings_eq] at atLeastOne
  have stands := (StandsLegally.of_isPrepared isPrepared).performAll tree atLeastOne operations
  generalize begun.performAll operations = met at *
  have reaches := (reaches_perform (succeeds.program_eq ▸ finds)
    (succeeds.program_eq ▸ stillInvoked) operation).1 last (List.mem_of_getLast? isLast)
  have following := succeeds_macrostepOf ended
  obtain ⟨rest, started⟩ := isAtRest_of_macrostepOf (stands.chart_eq ▸ tree)
    (stands.chart_eq ▸ free) (reaches.isSound (stillSound soundBegun))
    (succeeds.program_eq ▸ outcome) noneGenerated (stands.chart_eq ▸ addressed.rootInitial)
    (stands.chart_eq ▸ stands.legal) ended isLast
  refine idles_of_isAtRest ?_ (following.program_eq ▸ rest) started notFinal empty ?_
  · rw [chart, following.program_eq, succeeds.program_eq]
    exact tree
  · rw [following.settings_eq, stands.limit_eq]
    exact atLeastOne

/-- Somebody who pours when the water is hot, or when the kettle whistles loudly. -/
def waitingForTea : Definition :=
  { states := [
      { id := some "waiting", invocation := some { service := "kettle", source := some "tap" },
        transitions := [
          { condition := some "ctx.hot", target := some "pouring" },
          { event := some "whistle", condition := some "_event.data.loud",
            target := some "pouring" }] },
      { id := some "pouring" }] }

def kettleMachine : Machine :=
  preparedOrEmpty waitingForTea {} {} [("kettle", motor)]

/-- Once the kettle has whistled softly there is nothing to do. -/
theorem kettle_is_quiescent :
    prepare waitingForTea {} {} [("kettle", motor)] = .ok kettleMachine ∧
      ({} : DataModel).IsSound ∧ kettleMachine.chart.IsEventFree ∧
      ∃ report after last next,
        (kettleMachine.performAll [.start]).macrostepOf (.fire { name := "whistle" }) =
          some (.ok report, after) ∧
        ((kettleMachine.performAll [.start]).attemptsOf (.fire { name := "whistle" })).getLast? =
          some last ∧
        last.outcome kettleMachine.program = .ok ([], next) ∧ next.generated.toList = [] ∧
        after.status.isFinal = false ∧ after.world.inbox = [] ∧
        ∃ quiet, after.step = (.ok ⟨1, #[]⟩, quiet) ∧ after.Idles quiet := by
  have prepared : prepare waitingForTea {} {} [("kettle", motor)] = .ok kettleMachine :=
    prepare_eq_ok (by decide +kernel)
  have sound : ({} : DataModel).IsSound := DataModel.isSound_fresh _
  have free : kettleMachine.chart.IsEventFree := Chart.isEventFree_of_all (by decide +kernel)
  have isOk : ((kettleMachine.performAll [.start]).fire { name := "whistle" }).1.isOk = true := by
    decide +kernel
  have notFinal : ((kettleMachine.performAll [.start]).fire
      { name := "whistle" }).2.status.isFinal = false := by
    decide +kernel
  have empty : ((kettleMachine.performAll [.start]).fire
      { name := "whistle" }).2.world.inbox.isEmpty = true := by
    decide +kernel
  have findsNothing : ((kettleMachine.performAll [.start]).attemptsOf
      (.fire { name := "whistle" })).getLast?.any
        (Attempt.findsNothing kettleMachine.program) = true := by
    decide +kernel
  obtain ⟨last, isLast, finds⟩ := (Option.any_eq_true _ _).1 findsNothing
  obtain ⟨next, outcome, noneGenerated⟩ := Attempt.exists_of_findsNothing finds
  cases fired : (kettleMachine.performAll [.start]).fire { name := "whistle" } with
  | mk result after =>
      rw [fired] at isOk notFinal empty
      cases result with
      | error fault => cases isOk
      | ok report =>
          have ended : (kettleMachine.performAll [.start]).macrostepOf
              (.fire { name := "whistle" }) = some (.ok report, after) := congrArg some fired
          have noneWait := List.isEmpty_iff.1 empty
          exact ⟨prepared, sound, free, report, after, last, next, ended, isLast, outcome,
            noneGenerated, notFinal, noneWait, quiescent_machine_idles prepared sound free ended
              isLast outcome noneGenerated notFinal noneWait⟩

end Machine

end Statechart
