import Statechart.Machine.Macrostep
import Statechart.Proofs.World.Quiet

/-!
# What a microstep tells

Carrying out a microstep tells observers of each exit and then of each entry, in
the order of the resolution and of nothing else of the kind, and ends in the
configuration that was resolved.
-/

namespace Statechart

namespace World

namespace Solitary

theorem choose (world : World) (program : Program) (initial : Option TransitionId)
    (events : List Event) : Solitary world (world.choose program initial events).2 := by
  cases initial with
  | some id => exact .refl world
  | none => exact .select world program.chart events

theorem takeTransition (chart : Chart) (events : List Event) (active : NodeSet) (world : World)
    (id : TransitionId) : Solitary world (World.takeTransition chart events active world id) := by
  unfold World.takeTransition
  have ran := Solitary.run world ⟨chart, (chart.transition id).source, events, active⟩
    (chart.transition id).actions
  exact ran.trans (.foldl (fun world target => .observe world rfl) _ _)

theorem reportViolations (world : World) (chart : Chart)
    (violations : List (NodeId × Chart.Violation)) :
    Solitary world (world.reportViolations chart violations) :=
  .foldl (fun world _ => .report world _ _ _) violations world

end Solitary

/-- A step that keeps the leaves and the records of histories, and tells of some
entries and exits. -/
structure Tells (before after : World) (told : List Observation) : Prop where
  leaves_eq : after.status.leaves = before.status.leaves
  history_eq : after.status.history = before.status.history
  presences_eq : after.presences = before.presences ++ told

theorem Quiet.tells {before after : World} (quiet : Quiet before after) :
    Tells before after [] where
  leaves_eq := congrArg Status.leaves quiet.status_eq
  history_eq := congrArg Status.history quiet.status_eq
  presences_eq := quiet.presences_eq.trans (List.append_nil _).symm

namespace Tells

variable {first second third : World} {told more : List Observation}

theorem trans (left : Tells first second told) (right : Tells second third more) :
    Tells first third (told ++ more) where
  leaves_eq := right.leaves_eq.trans left.leaves_eq
  history_eq := right.history_eq.trans left.history_eq
  presences_eq := by rw [right.presences_eq, left.presences_eq, List.append_assoc]

theorem quiet (left : Tells first second told) (right : Quiet second third) :
    Tells first third told :=
  List.append_nil told ▸ left.trans right.tells

theorem foldl {Element : Type} {step : World → Element → World}
    (telling : Element → Observation)
    (steps : ∀ world element, Tells world (step world element) [telling element])
    (elements : List Element) (world : World) :
    Tells world (elements.foldl step world) (elements.map telling) := by
  induction elements generalizing world with
  | nil => exact (Quiet.refl world).tells
  | cons element rest ih => exact (steps world element).trans (ih (step world element))

theorem observe (world : World) (observation : Observation)
    (loud : observation.tellsPresence = true) :
    Tells world (world.observe observation) [observation] := by
  refine ⟨rfl, rfl, ?_⟩
  simp [presences_observe, loud]

/-- A change of the flags that leaves alone what is active and recorded. -/
theorem modifyStatus (world : World) (change : Status → Status)
    (leaves : ∀ status, (change status).leaves = status.leaves)
    (history : ∀ status, (change status).history = status.history) :
    Tells world (world.modifyStatus change) [] :=
  ⟨leaves world.status, history world.status, (List.append_nil _).symm⟩

/-! ## Completion -/

theorem leaveFinal (chart : Chart) (node : NodeId) (world : World) :
    Tells world (world.modifyStatus (World.leaveFinal chart node)) [] := by
  refine modifyStatus world _ (fun status => ?_) (fun status => ?_)
  all_goals
    unfold World.leaveFinal
    dsimp only
    repeat' split
    all_goals rfl

theorem completeParallel (chart : Chart) (world : World) (parallel : NodeId) :
    Tells world (World.completeParallel chart world parallel) [] := by
  unfold World.completeParallel
  dsimp only
  split
  · have marked := modifyStatus world (fun status =>
      { status with done := status.done.insert parallel }) (fun _ => rfl) (fun _ => rfl)
    exact marked.quiet (.emit _ _)
  · exact (Quiet.refl world).tells

theorem enterFinal (chart : Chart) (world : World) (node : NodeId) :
    Tells world (World.enterFinal chart world node) [] := by
  unfold World.enterFinal
  split
  · exact modifyStatus world _ (fun _ => rfl) (fun _ => rfl)
  · next parent _ =>
      split
      · exact modifyStatus world _ (fun _ => rfl) (fun _ => rfl)
      · have done := (Quiet.emit world (.ofCompletion (chart.idOf parent ++ ".done"))).tells.trans
          (modifyStatus _ (fun status =>
            { status with done := status.done.insert parent }) (fun _ => rfl) (fun _ => rfl))
        dsimp only
        split
        · split
          · exact done.trans (completeParallel chart _ _)
          · exact done
        · exact done

/-! ## Exits, transitions and entries -/

theorem exitState (chart : Chart) (events : List Event) (active : NodeSet) (world : World)
    (node : NodeId) :
    Tells world (World.exitState chart events active world node)
      [.exited (chart.idOf node)] := by
  have cancelled := Hushed.cancelService chart world node
  have ran := cancelled.trans
    (Solitary.run _ ⟨chart, node, events, active⟩ (chart.node node).onExit).toHushed
  have told := (ran.toQuiet.tells.trans (.observe _ (.exited (chart.idOf node)) rfl)).quiet
    (.emit _ (.ofCompletion (chart.idOf node ++ ".exit")))
  unfold World.exitState
  dsimp only
  split
  · exact told.trans (leaveFinal chart node _)
  · exact told

theorem enterState (chart : Chart) (events : List Event) (active : NodeSet)
    (resolution : Resolution) (world : World) (node : NodeId) :
    Tells world (World.enterState chart events active resolution world node)
      [.entered (chart.idOf node)] := by
  have undone : Tells world _ [] := modifyStatus world
    (fun status => { status with done := status.done.erase node })
    (fun _ => rfl) (fun _ => rfl)
  have ran := undone.quiet
    (Solitary.run _ ⟨chart, node, events, active⟩ (chart.node node).onEntry).toQuiet
  have told := (ran.trans (.observe _ (.entered (chart.idOf node)) rfl)).quiet
    (.emit _ (.ofCompletion (chart.idOf node ++ ".entry")))
  have settled := fun ids : List TransitionId => told.quiet (Solitary.foldl (fun world id =>
    .run world ⟨chart, node, events, active⟩ (chart.transition id).actions) ids _).toQuiet
  unfold World.enterState
  dsimp only
  split
  · exact (settled _).trans (enterFinal chart _ node)
  · exact settled _

end Tells

/-! ## Microsteps -/

/-- What observers are told of the exits and entries of a resolution. -/
def presencesOf (chart : Chart) (resolution : Resolution) : List Observation :=
  resolution.exited.map (fun node => .exited (chart.idOf node)) ++
    resolution.entered.map (fun node => .entered (chart.idOf node))

/-- What the histories have recorded after a resolution has been carried out. -/
def recordsAfter (chart : Chart) (status : Status) (resolution : Resolution) :
    NodeMap (List NodeId) :=
  resolution.exited.foldl (recordHistories chart status.leaves) status.history

/-- A world in which a resolution has been carried out. -/
structure CarriesOut (chart : Chart) (resolution : Resolution) (before after : World) : Prop where
  leaves_eq : after.status.leaves = resolution.after
  history_eq : after.status.history = recordsAfter chart before.status resolution
  presences_eq : after.presences = before.presences ++ presencesOf chart resolution

theorem carriesOut_carryOut (world : World) (chart : Chart) (events : List Event)
    (transitions : List TransitionId) (resolution : Resolution) :
    CarriesOut chart resolution world
      (world.carryOut chart events transitions resolution) := by
  have exits := Tells.foldl (fun node => .exited (chart.idOf node))
    (Tells.exitState chart events (chart.active world.status.leaves)) resolution.exited world
  have taken := exits.quiet (Solitary.foldl
    (.takeTransition chart events (chart.active world.status.leaves)) transitions _).toQuiet
  have entries := taken.trans (.foldl (fun node => .entered (chart.idOf node))
    (Tells.enterState chart events (chart.active resolution.after) resolution)
    resolution.entered _)
  refine ⟨rfl, ?_, entries.presences_eq⟩
  show resolution.exited.foldl (recordHistories chart world.status.leaves) _ = _
  rw [entries.history_eq]
  rfl

theorem CarriesOut.quiet {chart : Chart} {resolution : Resolution}
    {first second third fourth : World}
    (before : Quiet first second) (carries : CarriesOut chart resolution second third)
    (after : Quiet third fourth) : CarriesOut chart resolution first fourth where
  leaves_eq := (congrArg Status.leaves after.status_eq).trans carries.leaves_eq
  history_eq := by
    rw [after.status_eq, carries.history_eq, before.status_eq]
  presences_eq := by
    rw [after.presences_eq, carries.presences_eq, before.presences_eq]

/-- A quiet step after which no generated event tells of an entry, an exit or a
completion. -/
structure Clears (before after : World) : Prop extends Quiet before after where
  completions_eq : after.completions = []

/-- A microstep chooses transitions and resolves them where the machine stands.  Unless that
fails, it carries the resolution out and starts services. -/
theorem microstep_cases (world : World) (program : Program) (initial : Option TransitionId)
    (events : List Event) :
    ∃ asked chosen transitions, Clears world asked ∧ asked.services = world.services ∧
      asked.choose program initial events = (transitions, chosen) ∧
      ((∃ fault, program.chart.resolve chosen.status.history chosen.status.leaves transitions =
            .error fault ∧
          world.microstep program initial events = .error (chosen.giveUp program.chart fault)) ∨
        ∃ resolution, program.chart.resolve chosen.status.history chosen.status.leaves
            transitions = .ok resolution ∧
          world.microstep program initial events =
            .ok (transitions,
              (chosen.carryOut program.chart events transitions resolution).startPending
                program.chart program.registry events
                ((chosen.carryOut program.chart events transitions resolution).active
                  program))) := by
  let fresh : World := { world with generated := #[] }
  have finalizes := Solitary.finalizeAll fresh program.chart events (fresh.active program)
  have clears : Clears world (fresh.finalizeAll program.chart events (fresh.active program)) :=
    ⟨⟨finalizes.status_eq, finalizes.presences_eq⟩, finalizes.completions_eq⟩
  let asked := fresh.finalizeAll program.chart events (fresh.active program)
  let choice := asked.choose program initial events
  refine ⟨asked, choice.2, choice.1, clears, finalizes.services_eq, rfl, ?_⟩
  cases resolved : program.chart.resolve choice.2.status.history choice.2.status.leaves
      choice.1 with
  | error fault =>
      refine .inl ⟨fault, rfl, ?_⟩
      simp only [microstep, choice, asked, fresh] at resolved ⊢
      rw [resolved]
  | ok resolution =>
      refine .inr ⟨resolution, rfl, ?_⟩
      simp only [microstep, choice, asked, fresh] at resolved ⊢
      rw [resolved]

theorem exists_carryOut_of_microstep {world after : World} {program : Program}
    {initial : Option TransitionId} {events : List Event} {transitions : List TransitionId}
    (done : world.microstep program initial events = .ok (transitions, after)) :
    ∃ asked chosen resolution, Clears world asked ∧ asked.services = world.services ∧
      asked.choose program initial events = (transitions, chosen) ∧
      program.chart.resolve chosen.status.history chosen.status.leaves transitions =
        .ok resolution ∧
      after = (chosen.carryOut program.chart events transitions resolution).startPending
        program.chart program.registry events
        ((chosen.carryOut program.chart events transitions resolution).active program) := by
  obtain ⟨asked, chosen, others, clears, services, chooses, ⟨fault, -, failed⟩ |
    ⟨resolution, resolved, succeeded⟩⟩ := microstep_cases world program initial events
  · cases failed.symm.trans done
  · cases succeeded.symm.trans done
    exact ⟨asked, chosen, resolution, clears, services, chooses, resolved, rfl⟩

/-- The transitions of a microstep are the initial one or those selected where the
machine stands, and their resolution is carried out. -/
theorem exists_carriesOut_of_microstep {world after : World} {program : Program}
    {initial : Option TransitionId} {events : List Event} {transitions : List TransitionId}
    (done : world.microstep program initial events = .ok (transitions, after)) :
    ∃ asked : World, asked.status = world.status ∧
      transitions = (asked.choose program initial events).1 ∧
      ∃ resolution, program.chart.resolve world.status.history world.status.leaves transitions =
          .ok resolution ∧ CarriesOut program.chart resolution world after := by
  obtain ⟨asked, chosen, resolution, quiet, -, chooses, resolved, rfl⟩ :=
    exists_carryOut_of_microstep done
  have choosing := Solitary.choose asked program initial events
  rw [chooses] at choosing
  have ready := quiet.toQuiet.trans choosing.toQuiet
  rw [ready.status_eq] at resolved
  refine ⟨asked, quiet.status_eq, (congrArg Prod.fst chooses).symm, resolution, resolved, ?_⟩
  exact .quiet ready (carriesOut_carryOut chosen program.chart events transitions resolution)
    (Hushed.startPending _ program.chart program.registry events _).toQuiet

end World

end Statechart
