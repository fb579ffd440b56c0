import Statechart.Proofs.Microstep.Enabled
import Statechart.Proofs.Microstep.Resolution
import Statechart.Proofs.Microstep.Services
import Statechart.Proofs.World.Inward

/-!
# Standing still

A microstep that takes no transition where the machine stands legally exits and enters no state.
It has then started all services that active states were waiting for, and whatever was not
enabled with its events is not enabled without any.  So the world is at rest, and another
microstep without events finds nothing to do.
-/

namespace Statechart

/-- What comes of taking no transition. -/
def Resolution.staying (leaves : NodeSet) : Resolution :=
  { exited := [], entered := [], after := leaves, defaultEntries := ∅, historyDefaults := ∅ }

namespace Chart

/-- Nothing is exited, missing or entered where no transition is taken. -/
theorem resolve_nil {chart : Chart} (tree : chart.IsTree) {leaves : NodeSet}
    (legal : chart.IsLegalConfiguration leaves) (history : NodeMap (List NodeId)) :
    chart.resolve history leaves [] = .ok (.staying leaves) := by
  have residual : chart.residualOf leaves [] = leaves := by
    ext leaf
    rw [mem_residualOf, mem_leavesBehind]
    simp
  have noneMissing : chart.missingRegions leaves = [] := by
    refine List.eq_nil_iff_forall_not_mem.2 fun region missing => ?_
    obtain ⟨parallel, isActive, isParallel, isChild, inactive⟩ := mem_missingRegions.1 missing
    exact inactive (legal.parallel parallel isActive isParallel region isChild)
  have noneEntered : (chart.active leaves).filter (fun node =>
      !(chart.active leaves).contains node || NodeSet.contains ∅ node) = ∅ := by
    ext node
    rw [NodeSet.mem_filter]
    simp [NodeSet.not_mem_empty]
  refine resolve_eq_ok_iff.2 ⟨{ leaves }, ?_, tree.violations_eq_nil_iff.2 legal, ?_⟩
  · rw [residual]
    show chart.fillRegions history (chart.nodeCount + 1) { leaves } = _
    rw [fillRegions, noneMissing]
  · unfold resolutionOf
    dsimp only
    rw [show chart.leavesBehind leaves [] = ∅ from rfl, noneEntered]
    rfl

end Chart

namespace World

theorem carryOut_staying (world : World) (chart : Chart) (events : List Event) :
    world.carryOut chart events [] (.staying world.status.leaves) = world :=
  rfl

/-! ## Finalizing and starting -/

theorem finalizing_nil (world : World) (chart : Chart) : world.finalizing chart [] = [] := by
  unfold finalizing
  dsimp only
  rw [List.filter_eq_nil_iff.2 (by simp)]
  rfl

theorem finalizeAll_nil (world : World) (chart : Chart) (active : NodeSet) :
    world.finalizeAll chart [] active = world := by
  rw [finalizeAll, finalizing_nil, List.foldl_nil]

theorem forwardAll_nil (world : World) (chart : Chart) : world.forwardAll chart [] = world :=
  List.foldlRecOn (motive := fun other => other = world) _ _ rfl fun _ same _ _ => same

theorem awaitsStart_of_cover {world : World} {chart : Chart} {active : NodeSet}
    (covered : world.services.Cover chart active) {node : NodeId} (isActive : node ∈ active) :
    awaitsStart chart world.services node = false := by
  rw [Bool.eq_false_iff, Ne, awaitsStart_iff]
  exact fun ⟨invokes, unserved⟩ => unserved (covered node isActive invokes)

theorem startPending_of_cover {world : World} {chart : Chart} {active : NodeSet}
    (covered : world.services.Cover chart active) (registry : Registry) (events : List Event) :
    world.startPending chart registry events active = world := by
  have nonePending : active.toList.filter (awaitsStart chart world.services) = [] :=
    List.filter_eq_nil_iff.2 fun node isActive => by
      rw [awaitsStart_of_cover covered isActive]
      exact Bool.false_ne_true
  unfold startPending
  dsimp only
  rw [nonePending]
  rfl

section Starting

variable {world : World} (sound : world.model.IsSound)
include sound

theorem agree_evalExpression (scope : Scope) (text : String) :
    world.model.Agree (world.evalExpression scope text).2.model := by
  have agree := sound.agree_evalExpression scope.surroundings text
  unfold evalExpression
  generalize world.model.evalExpression scope.surroundings text = outcome at agree ⊢
  exact agree

theorem agree_evalSource (scope : Scope) (invocation : Invocation) :
    world.model.Agree (world.evalSource scope invocation).2.model := by
  unfold evalSource
  split
  · exact sound.agree
  · next expression _ _ =>
      have evaluated := agree_evalExpression sound scope expression
      split
      all_goals
        next result =>
          rw [result] at evaluated
          exact evaluated
  · exact sound.agree

theorem agree_evalParameters (scope : Scope) (found : List (String × Json.Value))
    (parameters : List Parameter) :
    world.model.Agree (world.evalParameters scope found parameters).2.model := by
  induction parameters generalizing world found with
  | nil => exact sound.agree
  | cons parameter rest ih =>
      have evaluated := agree_evalExpression sound scope
        (parameter.expression.getD ("ctx." ++ parameter.name))
      unfold World.evalParameters
      dsimp only
      split
      · next result =>
          rw [result] at evaluated
          exact evaluated
      · next value next result =>
          rw [result] at evaluated
          exact evaluated.trans (ih evaluated.sound_second _)

/-- A service is started with what is evaluated, and the call does not touch the data model. -/
theorem agree_startService (registry : Registry) (scope : Scope) (invocation : Invocation) :
    world.model.Agree (startService registry scope invocation world).2.model := by
  have source := agree_evalSource sound scope invocation
  unfold startService
  split
  · next result =>
      rw [result] at source
      exact source
  · next path sought result =>
      rw [result] at source
      have parameters := source.trans
        (agree_evalParameters source.sound_second scope [] invocation.parameters)
      split
      · next result =>
          rw [result] at parameters
          exact parameters
      · next result =>
          rw [result] at parameters
          split
          · exact parameters
          · dsimp only
            split
            all_goals
              next called =>
                obtain ⟨-, rfl⟩ := Prod.mk.inj called
                exact parameters

theorem agree_startAt (chart : Chart) (registry : Registry) (events : List Event)
    (active : NodeSet) (node : NodeId) :
    world.model.Agree (startAt chart registry events active world node).model := by
  unfold startAt
  split
  · exact sound.agree
  · next invocation _ =>
      have started := agree_startService sound registry ⟨chart, node, events, active⟩ invocation
      dsimp only
      split
      all_goals
        next result =>
          rw [result] at started
          exact started

/-- To start services leaves the context as it is. -/
theorem agree_startPending (chart : Chart) (registry : Registry) (events : List Event)
    (active : NodeSet) :
    world.model.Agree (world.startPending chart registry events active).model :=
  List.foldlRecOn (motive := fun other : World => world.model.Agree other.model) _ _ sound.agree
    fun _ agree node _ =>
      agree.trans (agree_startAt agree.sound_second chart registry events active node)

end Starting

/-! ## Rest -/

/-- A world where a microstep without events finds nothing to do: no candidate is enabled, and no
active state is waiting for a service. -/
structure IsAtRest (program : Program) (world : World) : Prop where
  sound : world.model.IsSound
  legal : program.chart.IsLegalConfiguration world.status.leaves
  covered : world.services.Cover program.chart (world.active program)
  noneEnabled : world.NoneEnabled program.chart []

variable {program : Program} {world after : World} {initial : Option TransitionId}
  {events : List Event}

/-- An initial transition is always taken. -/
theorem initial_eq_none_of_microstep
    (stepped : world.microstep program initial events = .ok ([], after)) : initial = none := by
  obtain ⟨asked, chosen, -, -, -, chooses, -⟩ := exists_carryOut_of_microstep stepped
  cases initial with
  | none => rfl
  | some id => cases (Prod.mk.inj chooses).1

/-- The world in which a microstep selects transitions. -/
def selecting (world : World) (program : Program) (events : List Event) : World :=
  { world with generated := #[] }.finalizeAll program.chart events (world.active program)

theorem select_of_microstep {transitions : List TransitionId}
    (stepped : world.microstep program none events = .ok (transitions, after)) :
    ((world.selecting program events).select program.chart events).1 = transitions := by
  unfold microstep at stepped
  dsimp only at stepped
  split at stepped
  · cases stepped
  · exact (Prod.mk.inj (Except.ok.inj stepped)).1

/-- A microstep that selects no transition only starts services. -/
theorem microstep_of_select_eq_nil (tree : program.chart.IsTree)
    (legal : program.chart.IsLegalConfiguration world.status.leaves) {chosen : World}
    (selects : (world.selecting program events).select program.chart events = ([], chosen))
    (status : chosen.status = world.status) :
    world.microstep program none events = .ok ([],
      chosen.startPending program.chart program.registry events (chosen.active program)) := by
  have stays : program.chart.resolve chosen.status.history chosen.status.leaves [] =
      .ok (.staying chosen.status.leaves) := by
    rw [status]
    exact Chart.resolve_nil tree legal world.status.history
  unfold selecting at selects
  unfold microstep choose
  dsimp only
  rw [show ({ world with generated := #[] } : World).active program = world.active program from rfl,
    selects]
  dsimp only
  rw [stays]
  dsimp only
  rw [carryOut_staying]

/-- To start the services that active states are waiting for leads to rest. -/
theorem isAtRest_startPending (sound : world.model.IsSound)
    (legal : program.chart.IsLegalConfiguration world.status.leaves)
    (noneEnabled : world.NoneEnabled program.chart []) (events : List Event) :
    (world.startPending program.chart program.registry events
      (world.active program)).IsAtRest program := by
  have agree := agree_startPending sound program.chart program.registry events
    (world.active program)
  have stands := (Hushed.startPending world program.chart program.registry events
    (world.active program)).status_eq
  have served := (isServed_startPending world program.chart program.registry events
    (world.active program)).2
  refine ⟨agree.sound_second, stands ▸ legal, fun node isActive invokes => ?_,
    noneEnabled.of_eq agree.context_eq.symm stands⟩
  have wasActive : node ∈ world.active program := by
    rw [World.active, stands] at isActive
    exact isActive
  exact (served node).2 (.inl ⟨wasActive, invokes⟩)

/-- A microstep that takes no transition leads to rest, if transitions that await no event do not
look at the events either. -/
theorem isAtRest_of_microstep (tree : program.chart.IsTree) (free : program.chart.IsEventFree)
    (sound : world.model.IsSound) (legal : program.chart.IsLegalConfiguration world.status.leaves)
    (stepped : world.microstep program none events = .ok ([], after)) :
    after.IsAtRest program := by
  have finalizes : Solitary { world with generated := #[] } (world.selecting program events) :=
    .finalizeAll _ program.chart events _
  have inward : Inward { world with generated := #[] } (world.selecting program events) :=
    .finalizeAll _ program.chart events _
  have soundSelecting := inward.isSound sound
  have ponders := (select_eq soundSelecting program.chart events).2
  have noneSelected := select_of_microstep stepped
  have noneEnabled := (select_eq_nil_iff tree soundSelecting).1 noneSelected
  cases selects : (world.selecting program events).select program.chart events with
  | mk transitions chosen =>
      rw [selects] at ponders noneSelected
      obtain rfl : transitions = [] := noneSelected
      have status : chosen.status = world.status := ponders.status_eq.trans finalizes.status_eq
      have staying := microstep_of_select_eq_nil tree legal selects status
      obtain ⟨-, rfl⟩ := Prod.mk.inj (Except.ok.inj (stepped.symm.trans staying))
      -- What was not enabled by the events is not enabled after them.
      exact isAtRest_startPending ponders.agree.sound_second (status ▸ legal)
        ((noneEnabled.withoutEvents free).of_eq ponders.agree.context_eq.symm ponders.status_eq)
        events

/-- At rest, a microstep without events takes no transition, starts no service and only ponders. -/
theorem IsAtRest.microstep (tree : program.chart.IsTree) (rest : world.IsAtRest program) :
    ∃ after, world.microstep program none [] = .ok ([], after) ∧
      Ponders { world with generated := #[] } after := by
  let fresh : World := { world with generated := #[] }
  have sound : fresh.model.IsSound := rest.sound
  have ponders := (select_eq sound program.chart []).2
  have noneSelected := (select_eq_nil_iff tree sound).2 rest.noneEnabled
  refine ⟨(fresh.select program.chart []).2, ?_, ponders⟩
  have selects : (world.selecting program []).select program.chart [] =
      ([], (fresh.select program.chart []).2) := by
    rw [selecting, finalizeAll_nil]
    exact Prod.ext noneSelected rfl
  rw [microstep_of_select_eq_nil tree rest.legal selects ponders.status_eq,
    startPending_of_cover]
  rw [World.active, ponders.status_eq, ponders.services_eq]
  exact rest.covered

end World

end Statechart
