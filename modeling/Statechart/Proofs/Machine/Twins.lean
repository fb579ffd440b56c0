import Statechart.Proofs.Machine.Run
import Statechart.Proofs.World.Twins

/-!
# Twin machines

Machines over one chart that invokes nothing, with equal settings and in worlds that are
alike, answer alike whatever is asked of them, and stay so.  A macrostep that is given up
is given up in both.
-/

namespace Statechart

namespace World

/-- Two runs that end alike: they yield the same, or both are given up for one reason. -/
inductive EndAlike {Result : Type} :
    Except Failure (Result × World) → Except Failure (Result × World) → Prop
  | done (result : Result) {first second : World} (twins : Twins first second) :
      EndAlike (.ok (result, first)) (.ok (result, second))
  | givenUp (fault : Fault) {first second : World} (alike : Alike first second) :
      EndAlike (.error ⟨first, fault⟩) (.error ⟨second, fault⟩)

variable {chart : Chart} {first second : World}

theorem Alike.reportViolations (alike : Alike first second) (chart : Chart)
    (violations : List (NodeId × Chart.Violation)) :
    Alike (first.reportViolations chart violations)
      (second.reportViolations chart violations) :=
  List.foldl_rel alike fun _ _ _ _ alike => alike.observe _ _

theorem Twins.choose (twins : Twins first second) (registry other : Registry)
    (initial : Option TransitionId) (events : List Event) :
    SameOutcome Twins (first.choose ⟨chart, registry⟩ initial events)
      (second.choose ⟨chart, other⟩ initial events) := by
  cases initial with
  | none => exact twins.select chart events
  | some id => exact ⟨rfl, twins⟩

theorem Alike.forwardBatch (alike : Alike first second) (chart : Chart)
    (registry other : Registry) (batch : List Event) :
    SameOutcome Twins (first.forwardBatch ⟨chart, registry⟩ batch)
      (second.forwardBatch ⟨chart, other⟩ batch) := by
  have forwarded := alike.cleared.forwardAll chart batch
  exact ⟨congrArg (fun generated : Array Event => batch ++ generated.toList)
    forwarded.generated_eq, forwarded⟩

theorem Alike.opening (alike : Alike first second) (chart : Chart) (registry other : Registry)
    (initial : Option TransitionId) :
    SameOutcome Twins (first.opening ⟨chart, registry⟩ initial)
      (second.opening ⟨chart, other⟩ initial) := by
  unfold World.opening
  rw [alike.inbox_eq]
  split
  · exact alike.forwardBatch chart registry other []
  · exact (alike.withInbox []).forwardBatch chart registry other second.inbox

theorem Alike.rollBack (alike : Alike first second) (chart : Chart) (registry other : Registry)
    (saved : Status) :
    Alike (first.rollBack ⟨chart, registry⟩ saved) (second.rollBack ⟨chart, other⟩ saved) :=
  (alike.withStatus saved).cancelInactive chart (saved.active chart)

section Running

variable (invokesNothing : chart.InvokesNothing)
include invokesNothing

theorem Alike.microstep (alike : Alike first second) (registry other : Registry)
    (initial : Option TransitionId) (events : List Event) :
    EndAlike (first.microstep ⟨chart, registry⟩ initial events)
      (second.microstep ⟨chart, other⟩ initial events) := by
  have cleared := alike.cleared
  unfold World.microstep
  dsimp only
  generalize ({ first with generated := #[] } : World) = first at cleared ⊢
  generalize ({ second with generated := #[] } : World) = second at cleared ⊢
  unfold World.active
  rw [cleared.status_eq]
  have finalized := cleared.finalizeAll chart events (second.status.active chart)
  obtain ⟨transitions, next, following, here, there, chosen⟩ :=
    (finalized.choose registry other initial events).exists
  rw [here, there]
  dsimp only
  rw [chosen.status_eq]
  cases chart.resolve following.status.history following.status.leaves transitions with
  | error fault =>
      cases fault with
      | illegal violations => exact .givenUp _ (chosen.toAlike.reportViolations chart violations)
      | endless => exact .givenUp _ chosen.toAlike
  | ok resolution =>
      have carried := chosen.carryOut chart events transitions resolution
      dsimp only
      rw [carried.status_eq]
      exact .done _ (carried.startPending invokesNothing registry other events _)

theorem Twins.microsteps (twins : Twins first second) (registry other : Registry)
    (remaining : Nat) (initial : Option TransitionId) (events : List Event) (done : Macrostep) :
    EndAlike (World.microsteps ⟨chart, registry⟩ remaining first initial events done)
      (World.microsteps ⟨chart, other⟩ remaining second initial events done) := by
  induction remaining generalizing first second initial events done with
  | zero =>
      unfold World.microsteps
      rw [twins.status_eq]
      split
      · exact .done _ twins
      · exact .done _ (twins.report _ _ _)
  | succ remaining ih =>
      unfold World.microsteps
      rw [twins.status_eq]
      split
      · exact .done _ twins
      · have stepped := twins.toAlike.microstep invokesNothing registry other initial events
        dsimp only
        generalize first.microstep ⟨chart, registry⟩ initial events = here at stepped ⊢
        generalize second.microstep ⟨chart, other⟩ initial events = there at stepped ⊢
        cases stepped with
        | givenUp fault after => exact .givenUp fault after
        | done transitions after =>
            -- What the microstep has generated is the batch of the next one.
            dsimp only
            rw [after.generated_eq]
            split
            · exact .done _ (after.observe _)
            · exact ih (after.observe _) none _ _

/-- A macrostep begins with the same events in worlds that are alike, and leaves twins. -/
theorem Alike.macrostep (alike : Alike first second) (registry other : Registry) (limit : Nat)
    (initial : Option TransitionId) :
    EndAlike (first.macrostep ⟨chart, registry⟩ limit initial)
      (second.macrostep ⟨chart, other⟩ limit initial) := by
  obtain ⟨events, next, following, here, there, opened⟩ :=
    (alike.opening chart registry other initial).exists
  have ran := opened.microsteps invokesNothing registry other limit initial events {}
  rw [macrostep_eq, macrostep_eq, here, there]
  dsimp only
  generalize World.microsteps ⟨chart, registry⟩ limit next initial events {} = first' at ran ⊢
  generalize World.microsteps ⟨chart, other⟩ limit following initial events {} = second' at ran ⊢
  cases ran with
  | done report twins => exact .done report twins
  | givenUp fault ended =>
      rw [alike.status_eq]
      exact .givenUp fault (ended.rollBack chart registry other second.status)

end Running

end World

namespace Machine

/-- Two machines that nothing asked of them from now on tells apart. -/
structure Alike (first second : Machine) : Prop where
  invokesNothing : first.chart.InvokesNothing
  chart_eq : first.chart = second.chart
  settings_eq : first.settings = second.settings
  isStarted_eq : first.isStarted = second.isStarted
  world : first.world.Alike second.world

namespace Alike

variable {first second : Machine} (alike : first.Alike second)
include alike

theorem status_eq : first.status = second.status :=
  alike.world.status_eq

theorem withWorlds {world other : World} (worlds : world.Alike other) :
    ({ first with world } : Machine).Alike { second with world := other } :=
  ⟨alike.invokesNothing, alike.chart_eq, alike.settings_eq, alike.isStarted_eq, worlds⟩

theorem withStarted (isStarted : Bool) :
    ({ first with isStarted } : Machine).Alike { second with isStarted } :=
  ⟨alike.invokesNothing, alike.chart_eq, alike.settings_eq, rfl, alike.world⟩

theorem macrostep (initial : Option TransitionId) :
    SameOutcome Alike (first.macrostep initial) (second.macrostep initial) := by
  obtain ⟨⟨chart, registry⟩, settings, isStarted, world⟩ := first
  obtain ⟨⟨_, other⟩, _, _, twin⟩ := second
  cases alike.chart_eq
  cases alike.settings_eq
  have invokesNothing : chart.InvokesNothing := alike.invokesNothing
  have ran := alike.world.macrostep invokesNothing registry other settings.maxMicrosteps initial
  unfold Machine.macrostep
  dsimp only at ran ⊢
  generalize world.macrostep ⟨chart, registry⟩ settings.maxMicrosteps initial = here at ran ⊢
  generalize twin.macrostep ⟨chart, other⟩ settings.maxMicrosteps initial = there at ran ⊢
  cases ran with
  | done report twins => exact ⟨rfl, alike.withWorlds twins.toAlike⟩
  | givenUp fault ended => exact ⟨rfl, alike.withWorlds ended⟩

theorem start : SameOutcome Alike first.start second.start := by
  unfold Machine.start
  rw [alike.isStarted_eq, alike.chart_eq]
  split
  · exact ⟨rfl, alike⟩
  · obtain ⟨result, next, following, here, there, after⟩ :=
      (alike.macrostep second.chart.root.initial).exists
    rw [here, there]
    cases result with
    | ok report => exact ⟨rfl, after.withStarted true⟩
    | error fault => exact ⟨rfl, after⟩

theorem step : SameOutcome Alike first.step second.step := by
  unfold Machine.step
  rw [alike.isStarted_eq, alike.status_eq]
  split
  · exact ⟨rfl, alike⟩
  · split
    · exact ⟨rfl, alike⟩
    · exact alike.macrostep none

theorem push (event : Event) : (first.push event).Alike (second.push event) :=
  alike.withWorlds (alike.world.post event)

theorem cancelService (id : String) :
    (first.cancelService id).2.Alike (second.cancelService id).2 := by
  unfold Machine.cancelService
  rw [alike.chart_eq, alike.world.idle_first, alike.world.idle_second]
  cases second.chart.lookup id with
  | none => exact alike
  | some node => exact alike

theorem reset : SameOutcome Alike first.reset second.reset := by
  have emptied := ((alike.world.cancelInactive second.chart ∅).withStatus {}).withInbox []
  unfold Machine.reset
  dsimp only
  rw [alike.chart_eq]
  exact ((alike.withWorlds emptied).withStarted false).start

theorem restore (snapshot : Snapshot) :
    SameOutcome Alike (first.restore snapshot) (second.restore snapshot) := by
  unfold Machine.restore
  dsimp only
  rw [alike.chart_eq]
  cases second.chart.statusOf snapshot with
  | error problem => exact ⟨rfl, alike⟩
  | ok status =>
      have cancelled := (alike.world.cancelInactive second.chart ∅).withStatus status
      dsimp only
      cases second.chart.violations status.leaves with
      | nil => exact ⟨rfl, (alike.withWorlds cancelled).withStarted true⟩
      | cons violation rest =>
          exact ⟨rfl, alike.withWorlds (alike.world.reportViolations second.chart _)⟩

/-- Whatever is asked of machines that are alike has the same outcome. -/
theorem perform (operation : Operation) :
    SameOutcome Alike (first.perform operation) (second.perform operation) := by
  cases operation with
  | start => exact alike.start.map _
  | step => exact alike.step.map _
  | fire event => exact (alike.push event).step.map _
  | push event => exact ⟨rfl, alike.push event⟩
  | cancelService id => exact ⟨rfl, alike.cancelService id⟩
  | reset => exact alike.reset.map _
  | restore snapshot => exact alike.restore snapshot

end Alike

end Machine

end Statechart
