import Mathlib.Data.Finset.Max
import Statechart.Proofs.DataModel
import Statechart.Proofs.Microstep.Selection

/-!
# Which transitions are enabled

Whether a transition is enabled can be told from the context, the batch of events and the active
states, whatever guards have been parsed by then.  To find it out changes nothing but which
guards are kept and what is reported.  If any transition is enabled, one is selected, and those
that await no event are enabled without events whenever they are enabled by some, unless they
look at the event.
-/

namespace Statechart

namespace Guard

/-- Whether a guard looks at the event being processed. -/
def mentionsEvent : Guard → Bool
  | literal _ | active _ => false
  | truthy field | equal field _ | unequal field _ | compare _ field _ => field.root == .event
  | both left right | either left right => left.mentionsEvent || right.mentionsEvent
  | negation inner => inner.mentionsEvent

theorem resolve_eq_of_root {field : Field} (notEvent : (field.root == .event) = false)
    (context : Json.Value) (first second : Surroundings) :
    field.resolve context first = field.resolve context second := by
  unfold Field.resolve
  cases root : field.root with
  | context => rfl
  | event =>
      rw [root] at notEvent
      cases notEvent

/-- A guard that does not look at the event holds with any event or with none. -/
theorem holds_eq_of_mentionsEvent {guard : Guard} (free : guard.mentionsEvent = false)
    (context : Json.Value) {first second : Surroundings}
    (same : first.isActive = second.isActive) :
    guard.holds context first = guard.holds context second := by
  induction guard with
  | literal value => rfl
  | active state => rw [holds, holds, same]
  | truthy field => rw [holds, holds, resolve_eq_of_root free context first second]
  | equal field value => rw [holds, holds, resolve_eq_of_root free context first second]
  | unequal field value => rw [holds, holds, resolve_eq_of_root free context first second]
  | compare order field bound =>
      rw [holds, holds, resolve_eq_of_root free context first second]
  | both left right ihLeft ihRight =>
      obtain ⟨freeLeft, freeRight⟩ := Bool.or_eq_false_iff.1 free
      rw [holds, holds, ihLeft freeLeft, ihRight freeRight]
  | either left right ihLeft ihRight =>
      obtain ⟨freeLeft, freeRight⟩ := Bool.or_eq_false_iff.1 free
      rw [holds, holds, ihLeft freeLeft, ihRight freeRight]
  | negation inner ih => rw [holds, holds, ih free]

end Guard

/-- Whether a transition awaits an event or does not look at it. -/
def Transition.isEventFree (transition : Transition) : Bool :=
  transition.event.isSome ||
    match transition.condition.map Guard.parse with
    | some (.ok guard) => !guard.mentionsEvent
    | some (.error _) | none => true

namespace Chart

/-- Transitions that await no event do not look at the event either. -/
def IsEventFree (chart : Chart) : Prop :=
  ∀ id condition guard, (chart.transition id).event = none →
    (chart.transition id).condition = some condition → Guard.parse condition = .ok guard →
      guard.mentionsEvent = false

theorem isEventFree_of_all {chart : Chart}
    (all : chart.transitions.all Transition.isEventFree = true) : chart.IsEventFree := by
  intro id condition guard awaitsNone isCondition isGuard
  have free : (chart.transition id).isEventFree = true := by
    by_cases present : id < chart.transitions.size
    · have found := Array.all_eq_true.1 all id present
      simpa [transition, Array.getD_eq_getD_getElem?, present] using found
    · have default_eq : chart.transition id = default := by
        simp [transition, Array.getD_eq_getD_getElem?, present]
      rw [default_eq]
      rfl
  simpa [Transition.isEventFree, awaitsNone, isCondition, isGuard] using free

/-- Whether a transition is enabled: one of the events fits its pattern and its condition holds.
A condition that is no guard counts as false. -/
def enables (chart : Chart) (context : Json.Value) (events : List Event) (active : NodeSet)
    (id : TransitionId) : Bool :=
  let transition := chart.transition id
  patternMatches transition.event events &&
    match transition.condition with
    | none => true
    | some condition =>
      match Guard.parse condition with
      | .ok guard =>
        guard.holds context (Scope.surroundings ⟨chart, transition.source, events, active⟩)
      | .error _ => false

/-- What is enabled without events awaits none, and is enabled by any events. -/
theorem IsEventFree.enables {chart : Chart} (free : chart.IsEventFree) {context : Json.Value}
    {active : NodeSet} {id : TransitionId} (enabled : chart.enables context [] active id = true)
    (events : List Event) : chart.enables context events active id = true := by
  unfold Chart.enables at enabled ⊢
  dsimp only at enabled ⊢
  obtain ⟨fits, holds⟩ := Bool.and_eq_true_iff.1 enabled
  cases awaited : (chart.transition id).event with
  | some descriptors =>
      rw [awaited] at fits
      simp [patternMatches] at fits
  | none =>
      refine Bool.and_eq_true_iff.2 ⟨rfl, ?_⟩
      cases isCondition : (chart.transition id).condition with
      | none => rfl
      | some condition =>
          rw [isCondition] at holds
          dsimp only at holds ⊢
          cases isGuard : Guard.parse condition with
          | error flaw =>
              rw [isGuard] at holds
              cases holds
          | ok guard =>
              rw [isGuard] at holds
              dsimp only at holds ⊢
              rw [← holds]
              exact Guard.holds_eq_of_mentionsEvent (free id condition guard awaited isCondition
                isGuard) context rfl

/-! ## Conflicts -/

section Conflicts

variable {chart : Chart} {Enabled : TransitionId → Prop}

/-- Every transition that is overridden has a transition below it. -/
def OverridesFromBelow (chart : Chart) (Enabled : TransitionId → Prop)
    (conflicts : Conflicts) : Prop :=
  ∀ id ∈ conflicts.overridden, ∃ other, Enabled other ∧
    chart.isDescendant (chart.transition other).source (chart.transition id).source = true

theorem OverridesFromBelow.compareWith {conflicts : Conflicts}
    (below : chart.OverridesFromBelow Enabled conflicts) {id : TransitionId} (enabled : Enabled id)
    {others : List TransitionId} (enabledOthers : ∀ other ∈ others, Enabled other) :
    chart.OverridesFromBelow Enabled (chart.compareWith id conflicts others) := by
  induction others generalizing conflicts with
  | nil => exact below
  | cons other rest ih =>
      have enabledOther := enabledOthers other List.mem_cons_self
      have enabledRest : ∀ later ∈ rest, Enabled later :=
        fun later member => enabledOthers later (List.mem_cons_of_mem _ member)
      unfold Chart.compareWith
      dsimp only
      split
      · next isBelow =>
          intro lower member
          rcases List.mem_cons.1 member with rfl | earlier
          · exact ⟨other, enabledOther, isBelow⟩
          · exact below lower earlier
      · split
        · next isAbove =>
            refine ih (fun lower member => ?_) enabledRest
            rcases List.mem_cons.1 member with rfl | earlier
            · exact ⟨id, enabled, isAbove⟩
            · exact below lower earlier
        · exact ih below enabledRest

theorem OverridesFromBelow.conflictsAmong {conflicts : Conflicts}
    (below : chart.OverridesFromBelow Enabled conflicts) {ids : List TransitionId}
    (enabled : ∀ id ∈ ids, Enabled id) :
    chart.OverridesFromBelow Enabled (chart.conflictsAmong conflicts ids) := by
  induction ids generalizing conflicts with
  | nil => exact below
  | cons id rest ih =>
      have enabledRest : ∀ later ∈ rest, Enabled later :=
        fun later member => enabled later (List.mem_cons_of_mem _ member)
      exact ih (below.compareWith (enabled id List.mem_cons_self) enabledRest) enabledRest

theorem dropRepeats_eq_nil {ids : List TransitionId} (none : dropRepeats ids = []) : ids = [] := by
  induction ids with
  | nil => rfl
  | cons first rest ih =>
      cases rest with
      | nil => cases none
      | cons second others =>
          rw [dropRepeats] at none
          split at none
          · cases ih none
          · cases none

/-- The first transition is kept as long as no source has been served. -/
theorem firstPerSource_eq_nil {contested ids : List TransitionId}
    (none : chart.firstPerSource contested [] ids = []) : ids = [] := by
  cases ids with
  | nil => rfl
  | cons first rest =>
      rw [firstPerSource] at none
      split at none
      · cases none
      · cases none

/-- A transition from a state with the highest number is overridden by none. -/
theorem exists_not_overridden (tree : chart.IsTree) {enabled : List TransitionId}
    (some : enabled ≠ []) :
    ∃ id ∈ enabled, id ∉ (chart.conflictsAmong {} enabled).overridden := by
  obtain ⟨id, member, highest⟩ := Finset.exists_max_image enabled.toFinset
    (fun id => (chart.transition id).source) (List.toFinset_nonempty_iff _ |>.2 some)
  refine ⟨id, List.mem_toFinset.1 member, fun overridden => ?_⟩
  have none : chart.OverridesFromBelow (· ∈ enabled) {} := fun _ member => by cases member
  obtain ⟨other, isOther, below⟩ := none.conflictsAmong (fun _ isEnabled => isEnabled) id overridden
  have notHigher := highest other (List.mem_toFinset.2 isOther)
  exact absurd (tree.lt_of_isDescendant below) (Nat.not_lt.2 notHigher)

/-- If any transition is enabled, one is taken. -/
theorem resolveConflicts_eq_nil (tree : chart.IsTree) {enabled : List TransitionId}
    (none : chart.resolveConflicts enabled = []) : enabled = [] := by
  by_contra some
  obtain ⟨id, member, notOverridden⟩ := exists_not_overridden tree some
  have sorted := dropRepeats_eq_nil (firstPerSource_eq_nil none)
  have remains : id ∈ sortOrdered chart.transitionPrecedes (enabled.filter fun id =>
      !(chart.conflictsAmong {} enabled).overridden.contains id) :=
    (mem_sortOrdered _).2 (List.mem_filter.2 ⟨member, by simpa using notOverridden⟩)
  rw [sorted] at remains
  cases remains

end Conflicts

end Chart

namespace World

/-! ## Finding out what is enabled -/

/-- Finding out what is enabled changes only which guards are kept, and may report conditions
that fail. -/
structure Ponders (before after : World) : Prop where
  agree : before.model.Agree after.model
  status_eq : after.status = before.status
  services_eq : after.services = before.services
  inbox_eq : after.inbox = before.inbox
  generated_eq : after.generated = before.generated
  exists_reports : ∃ reports : List Report, (∀ report ∈ reports, report.code = .expressionError) ∧
    after.observations.toList = before.observations.toList ++ reports.map .reported

namespace Ponders

theorem refl {world : World} (sound : world.model.IsSound) : Ponders world world :=
  ⟨sound.agree, rfl, rfl, rfl, rfl, [], List.forall_mem_nil _, (List.append_nil _).symm⟩

theorem trans {first second third : World} (left : Ponders first second)
    (right : Ponders second third) : Ponders first third where
  agree := left.agree.trans right.agree
  status_eq := right.status_eq.trans left.status_eq
  services_eq := right.services_eq.trans left.services_eq
  inbox_eq := right.inbox_eq.trans left.inbox_eq
  generated_eq := right.generated_eq.trans left.generated_eq
  exists_reports := by
    obtain ⟨earlier, areEarlier, isSecond⟩ := left.exists_reports
    obtain ⟨later, areLater, isThird⟩ := right.exists_reports
    refine ⟨earlier ++ later, List.forall_mem_append.2 ⟨areEarlier, areLater⟩, ?_⟩
    rw [isThird, isSecond, List.map_append, List.append_assoc]

theorem evalCondition {world : World} (sound : world.model.IsSound) (scope : Scope)
    (condition : String) : Ponders world (world.evalCondition scope condition).2 :=
  ⟨sound.agree_evalCondition scope.surroundings condition, rfl, rfl, rfl, rfl, [],
    List.forall_mem_nil _, (List.append_nil _).symm⟩

theorem report {world : World} (sound : world.model.IsSound) (detail source : String) :
    Ponders world (world.report .expressionError detail source) :=
  ⟨sound.agree, rfl, rfl, rfl, rfl, [_], List.forall_mem_singleton.2 rfl, Array.toList_push⟩

end Ponders

variable {world : World}

/-- Whether a transition is enabled does not depend on which guards are kept. -/
theorem isEnabled_eq (sound : world.model.IsSound) (chart : Chart) (events : List Event)
    (active : NodeSet) (id : TransitionId) :
    (isEnabled chart events active world id).1 =
        chart.enables world.model.context events active id ∧
      Ponders world (isEnabled chart events active world id).2 := by
  unfold isEnabled Chart.enables
  dsimp only
  split
  · next unfit =>
      rw [Bool.not_eq_true'] at unfit
      rw [unfit]
      exact ⟨rfl, .refl sound⟩
  · next fits =>
      rw [Bool.not_eq_true', Bool.not_eq_false] at fits
      rw [fits, Bool.true_and]
      cases (chart.transition id).condition with
      | none => exact ⟨rfl, .refl sound⟩
      | some condition =>
          let scope : Scope := ⟨chart, (chart.transition id).source, events, active⟩
          have isHeld := sound.evalCondition_eq scope.surroundings condition
          have ponders := Ponders.evalCondition sound scope condition
          change (world.evalCondition scope condition).1 = _ at isHeld
          dsimp only
          cases outcome : world.evalCondition scope condition with
          | mk result next =>
              rw [outcome] at isHeld ponders
              dsimp only at isHeld ponders
              cases isGuard : Guard.parse condition with
              | ok guard =>
                  rw [isGuard] at isHeld
                  subst isHeld
                  exact ⟨rfl, ponders⟩
              | error flaw =>
                  rw [isGuard] at isHeld
                  subst isHeld
                  exact ⟨rfl, ponders.trans (.report ponders.agree.sound_second ..)⟩

theorem enabledOf_eq (sound : world.model.IsSound) (chart : Chart) (events : List Event)
    (active : NodeSet) (ids : List TransitionId) :
    (enabledOf chart events active world ids).1 =
        ids.filter (chart.enables world.model.context events active) ∧
      Ponders world (enabledOf chart events active world ids).2 := by
  induction ids generalizing world with
  | nil => exact ⟨rfl, .refl sound⟩
  | cons id rest ih =>
      obtain ⟨isFirst, ponders⟩ := isEnabled_eq sound chart events active id
      obtain ⟨areRest, pondersRest⟩ := ih ponders.agree.sound_second
      refine ⟨?_, ponders.trans pondersRest⟩
      rw [enabledOf]
      dsimp only
      rw [isFirst, areRest, ← ponders.agree.context_eq, List.filter_cons]

/-- To select transitions is to ponder which candidates are enabled. -/
theorem select_eq (sound : world.model.IsSound) (chart : Chart) (events : List Event) :
    (world.select chart events).1 = chart.resolveConflicts
        ((chart.candidates world.status.leaves).filter
          (chart.enables world.model.context events (world.status.active chart))) ∧
      Ponders world (world.select chart events).2 := by
  obtain ⟨enabled, ponders⟩ := enabledOf_eq sound chart events (world.status.active chart)
    (chart.candidates world.status.leaves)
  exact ⟨congrArg chart.resolveConflicts enabled, ponders⟩

/-- Whether no candidate is enabled by some events. -/
def NoneEnabled (world : World) (chart : Chart) (events : List Event) : Prop :=
  ∀ id ∈ chart.candidates world.status.leaves,
    chart.enables world.model.context events (world.status.active chart) id = false

/-- No transition is selected just when none is enabled. -/
theorem select_eq_nil_iff {chart : Chart} (tree : chart.IsTree) (sound : world.model.IsSound)
    {events : List Event} :
    (world.select chart events).1 = [] ↔ world.NoneEnabled chart events := by
  have none_iff : (chart.candidates world.status.leaves).filter
      (chart.enables world.model.context events (world.status.active chart)) = [] ↔
      world.NoneEnabled chart events := by
    rw [List.filter_eq_nil_iff]
    exact forall₂_congr fun id candidate => Bool.not_eq_true _ ▸ Iff.rfl
  rw [(select_eq sound chart events).1, ← none_iff]
  constructor
  · exact Chart.resolveConflicts_eq_nil tree
  · intro none
    rw [none]
    rfl

namespace NoneEnabled

variable {after : World} {chart : Chart} {events : List Event}

theorem of_eq (none : world.NoneEnabled chart events)
    (context : after.model.context = world.model.context) (status : after.status = world.status) :
    after.NoneEnabled chart events := by
  unfold NoneEnabled
  rw [context, status]
  exact none

/-- Where no candidate is enabled by some events, none is without events. -/
theorem withoutEvents (none : world.NoneEnabled chart events) (free : chart.IsEventFree) :
    world.NoneEnabled chart [] := by
  intro id candidate
  rw [Bool.eq_false_iff]
  exact fun enabled => absurd (free.enables enabled events) (by rw [none id candidate]; decide)

end NoneEnabled

end World

end Statechart
