import Mathlib.Data.List.Induction
import Statechart.Proofs.Machine.Attempts
import Statechart.Proofs.Microstep.Services
import Statechart.Proofs.World.Calls

/-!
# What starts services

Services are started only at the end of a microstep that is not given up, for states that are
active by then; to give up a macrostep cancels services and starts none.
-/

namespace Statechart

open Services (Steps StartsOnly callsSince)

/-- A call is made for a state that is active, after the microstep has carried out its
transitions in some world, from where only services are still to be started. -/
def Attempt.CallsAtActive (program : Program) (attempt : Attempt) (node : NodeId)
    (call : Service.Call) : Prop :=
  ∃ (transitions : List TransitionId) (carried after : World),
    attempt.outcome program = .ok (transitions, after) ∧
    after = carried.startPending program.chart program.registry attempt.events
      (carried.active program) ∧
    node ∈ carried.active program ∧ call ∈ callsSince carried.services after.services

/-- Every start is made in one of some microsteps, for a state that is active there. -/
def StartsIn (program : Program) (attempts : List Attempt) (node : NodeId)
    (call : Service.Call) : Prop :=
  call.request.isStart = true → ∃ attempt ∈ attempts, attempt.CallsAtActive program node call

theorem StartsIn.mono {program : Program} {fewer more : List Attempt} {node : NodeId}
    {call : Service.Call} (starts : StartsIn program fewer node call) (subset : fewer ⊆ more) :
    StartsIn program more node call := by
  intro isStart
  obtain ⟨attempt, member, calls⟩ := starts isStart
  exact ⟨attempt, subset member, calls⟩

theorem StartsIn.of_none {program : Program} {attempts : List Attempt} {node : NodeId}
    {call : Service.Call} (none : StartsOnly (fun _ => False) node call) :
    StartsIn program attempts node call :=
  fun isStart => (none isStart).elim

namespace World

/-! ## One microstep -/

theorem steps_carryOut {program : Program} {Fit : NodeId → Prop} (world : World)
    (events : List Event) (transitions : List TransitionId) (resolution : Resolution) :
    Steps program (StartsOnly Fit) world.services
      (world.carryOut program.chart events transitions resolution).services := by
  rw [services_carryOut]
  refine steps_foldl (fun world node => ?_) resolution.exited world
  rw [services_exitState]
  exact steps_cancelService world node

/-- A microstep that is given up leaves the services alone.  Any other one cancels those of the
exited states, and then starts some for active states. -/
theorem steps_microstep (program : Program) (attempt : Attempt) :
    Steps program (StartsIn program [attempt]) attempt.world.services
      (worldAfter (attempt.outcome program)).services := by
  obtain ⟨asked, chosen, transitions, -, services, chooses, outcome⟩ :=
    microstep_cases attempt.world program attempt.initial attempt.events
  have choosing := Solitary.choose asked program attempt.initial attempt.events
  rw [chooses] at choosing
  rcases outcome with ⟨fault, -, failed⟩ | ⟨resolution, -, succeeded⟩
  · rw [Attempt.outcome, failed, worldAfter, (Solitary.giveUp _ _ _).services_eq,
      choosing.services_eq, services]
    exact .refl _
  · let carried := chosen.carryOut program.chart attempt.events transitions resolution
    have carries : Steps program (StartsOnly fun _ => False) attempt.world.services
        carried.services := by
      rw [← services, ← choosing.services_eq]
      exact steps_carryOut chosen attempt.events transitions resolution
    have starts : Steps program _ carried.services _ :=
      (steps_startPending carried attempt.events (carried.active program)).within
    rw [Attempt.outcome, succeeded, worldAfter]
    refine (carries.mono fun _ _ => .of_none).trans (starts.mono ?_)
    rintro node call ⟨fits, isCall⟩ isStart
    exact ⟨attempt, List.mem_singleton_self attempt, transitions, carried, _, succeeded, rfl,
      (fits isStart).1, isCall⟩

/-- To forward the events of a macrostep starts nothing. -/
theorem steps_opening {Fit : NodeId → Prop} (world : World) (program : Program)
    (initial : Option TransitionId) :
    Steps program (StartsOnly Fit) world.services
      (world.opening program initial).2.services := by
  unfold opening forwardBatch
  split
  · exact steps_forwardAll { world with generated := #[] } []
  · exact steps_forwardAll { world with inbox := [], generated := #[] } world.inbox

/-- To give up a macrostep starts nothing. -/
theorem steps_rollBack {Fit : NodeId → Prop} (world : World) (program : Program) (saved : Status) :
    Steps program (StartsOnly Fit) world.services (world.rollBack program saved).services :=
  steps_cancelInactive { world with status := saved } (saved.active program.chart)

end World

namespace Machine

/-! ## What operations call -/

section Operations

variable (machine : Machine)

theorem leads_steps (attempts : List Attempt) :
    machine.Leads attempts (fun before after =>
      Steps machine.program (StartsIn machine.program attempts) before.services
        after.services) where
  solitary _ _ solitary := solitary.steps
  trans _ _ _ := .trans
  opening initial := (World.steps_opening machine.world machine.program initial).mono
    fun _ _ => .of_none
  attempt attempt member := (World.steps_microstep machine.program attempt).mono
    fun _ _ starts => starts.mono (List.cons_subset.2 ⟨member, List.nil_subset _⟩)
  rollBack world := (World.steps_rollBack world machine.program machine.status).mono
    fun _ _ => .of_none

theorem steps_cancelService (id : String) {Fit : NodeId → Prop} :
    Steps machine.program (StartsOnly Fit) machine.world.services
      (machine.cancelService id).2.world.services := by
  unfold cancelService
  split
  · exact .refl _
  · next node _ =>
      split
      · let cancelled :=
          World.cancelService machine.chart { machine.world with generated := #[] } node
        have cancels : Steps machine.program (StartsOnly Fit) machine.world.services
            cancelled.services :=
          World.steps_cancelService { machine.world with generated := #[] } node
        have suppresses : Steps machine.program (StartsOnly Fit) machine.world.services
            (cancelled.suppress node).services := cancels.tail (.suppressed _ _)
        have posts := World.Solitary.foldl .post (cancelled.suppress node).generated.toList
          (cancelled.suppress node)
        rw [← posts.services_eq] at suppresses
        exact suppresses
      · exact .refl _

theorem steps_restore (snapshot : Snapshot) {Fit : NodeId → Prop} :
    Steps machine.program (StartsOnly Fit) machine.world.services
      (machine.restore snapshot).2.world.services := by
  unfold restore
  dsimp only
  split
  · exact .refl _
  · split
    · exact World.steps_cancelInactive machine.world ∅
    · rw [(World.Solitary.reportViolations _ _ _).services_eq]
      exact .refl _

/-- Whatever a machine is asked, services are started only at the end of a microstep, for states
that are active by then. -/
theorem steps_perform (operation : Operation) :
    Steps machine.program (StartsIn machine.program (machine.attemptsOf operation))
      machine.world.services (machine.perform operation).2.world.services := by
  cases operation with
  | start => exact (machine.leads_steps _).start
  | step => exact (machine.leads_steps _).step
  | fire event => exact ((machine.push event).leads_steps _).step
  | push event => exact .refl _
  | cancelService id => exact (machine.steps_cancelService id).mono fun _ _ => .of_none
  | reset =>
      have emptied : Steps machine.program (StartsOnly fun _ => False) machine.world.services
          machine.emptied.world.services := World.steps_cancelInactive machine.world ∅
      exact (emptied.mono fun _ _ => .of_none).trans (machine.emptied.leads_steps _).start
  | restore snapshot => exact (machine.steps_restore snapshot).mono fun _ _ => .of_none

end Operations

/-! ## Operations one after the other -/

/-- How each operation leads a machine from one world to another, operations lead it together. -/
theorem related_performAll (Related : World → World → Prop) (refl : ∀ world, Related world world)
    (trans : ∀ first second third, Related first second → Related second third →
      Related first third)
    {machine : Machine} {operations : List Operation}
    (steps : ∀ before operation later, operations = before ++ operation :: later →
      Related (machine.performAll before).world
        ((machine.performAll before).perform operation).2.world) :
    Related machine.world (machine.performAll operations).world := by
  induction operations using List.reverseRecOn with
  | nil => exact refl machine.world
  | append_singleton earlier last ih =>
      have before := ih fun before operation later split =>
        steps before operation (later ++ [last])
          (by rw [split, List.append_assoc, List.cons_append])
      rw [performAll, List.foldl_append]
      exact trans _ _ _ before (steps earlier last [] rfl)

/-- A call in the course of operations starts an instance only in a microstep of one of them, for
a state that is active there. -/
def StartsAlong (machine : Machine) (operations : List Operation) (node : NodeId)
    (call : Service.Call) : Prop :=
  call.request.isStart = true → ∃ before operation later,
    operations = before ++ operation :: later ∧
      ∃ attempt ∈ (machine.performAll before).attemptsOf operation,
        attempt.CallsAtActive machine.program node call

theorem steps_performAll (machine : Machine) (operations : List Operation) :
    Steps machine.program (machine.StartsAlong operations) machine.world.services
      (machine.performAll operations).world.services := by
  refine related_performAll
    (fun before after => Steps machine.program (machine.StartsAlong operations) before.services
      after.services)
    (fun world => .refl world.services) (fun _ _ _ => .trans) fun before operation later split => ?_
  have steps := (machine.performAll before).steps_perform operation
  rw [(machine.succeeds_performAll before).program_eq] at steps
  refine steps.mono fun node call starts isStart => ?_
  obtain ⟨attempt, member, calls⟩ := starts isStart
  exact ⟨before, operation, later, split, attempt, member, calls⟩

end Machine

end Statechart
