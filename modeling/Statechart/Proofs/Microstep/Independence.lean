import Statechart.Proofs.Chart.Evaluation
import Statechart.Proofs.Microstep.Locality
import Statechart.Proofs.Microstep.Records

/-!
# Independent regions

Two transitions that move within different regions of a parallel do not get into
each other's way.  Taken together they come to the same end as one after the
other, in either order: the same leaves are active and the same is recorded.  The
expansion of both comes to an end if that of each one alone does, and they break
rules together if one of them does alone.
-/

namespace Statechart

namespace Proposal

variable {chart : Chart} {history : NodeMap (List NodeId)} {before : NodeSet}
variable {left right : NodeId} {first second : TransitionId} {both : List TransitionId}

/-- Two transitions that move within regions apart, and a list of just these two. -/
structure MoveApart (chart : Chart) (left right : NodeId) (first second : TransitionId)
    (both : List TransitionId) : Prop where
  apart : chart.AreApart left right
  leftward : chart.MovesWithin left first
  rightward : chart.MovesWithin right second
  mem_both : ∀ id, id ∈ both ↔ id = first ∨ id = second

namespace MoveApart

variable (moves : MoveApart chart left right first second both)
include moves

theorem symm : MoveApart chart right left second first both where
  apart := moves.apart.symm
  leftward := moves.rightward
  rightward := moves.leftward
  mem_both := fun id => (moves.mem_both id).trans or_comm

theorem movesWithin : ∀ id ∈ [first], chart.MovesWithin left id :=
  fun _ member => List.mem_singleton.1 member ▸ moves.leftward

/-- In scope of both is what is in scope of either. -/
theorem isInScope_iff {node : NodeId} :
    chart.IsInScope both node ↔ chart.IsInScope [first] node ∨ chart.IsInScope [second] node := by
  constructor
  · rintro ⟨scope, ⟨id, member, target, isTarget, isScope⟩, below⟩
    rcases (moves.mem_both id).1 member with rfl | rfl
    · exact .inl ⟨scope, ⟨id, List.mem_singleton_self id, target, isTarget, isScope⟩, below⟩
    · exact .inr ⟨scope, ⟨id, List.mem_singleton_self id, target, isTarget, isScope⟩, below⟩
  · rintro (⟨scope, ⟨id, member, target, isTarget, isScope⟩, below⟩ |
      ⟨scope, ⟨id, member, target, isTarget, isScope⟩, below⟩)
    · exact ⟨scope, ⟨id, (moves.mem_both id).2 (.inl (List.mem_singleton.1 member)), target,
        isTarget, isScope⟩, below⟩
    · exact ⟨scope, ⟨id, (moves.mem_both id).2 (.inr (List.mem_singleton.1 member)), target,
        isTarget, isScope⟩, below⟩

/-- What is in scope of a transition lies within its region. -/
theorem isWithin_of_isInScope (tree : chart.IsTree) {node : NodeId}
    (inScope : chart.IsInScope [first] node) : chart.isWithin node left = true :=
  Chart.isWithin_of_isDescendant (tree.isDescendant_of_isInScope moves.movesWithin inScope)

/-- Within its region a transition does alone what both do together. -/
theorem agreeWithin :
    AgreeWithin chart left ⟨history, before, [first]⟩ ⟨history, before, both⟩ where
  leaves := fun _ _ => Iff.rfl
  records := fun _ _ _ => rfl
  forth := by
    intro id member
    obtain rfl := List.mem_singleton.1 member
    exact .inl ⟨moves.leftward, (moves.mem_both id).2 (.inl rfl)⟩
  back := by
    intro id member
    rcases (moves.mem_both id).1 member with rfl | rfl
    · exact .inl ⟨moves.leftward, List.mem_singleton_self id⟩
    · exact .inr ⟨right, moves.apart.symm, moves.rightward⟩

section Ready

variable (ready : IsReady ⟨history, before, both⟩ chart)
include ready

theorem isReady : IsReady ⟨history, before, [first]⟩ chart where
  legal := ready.legal
  records := ready.records
  active := fun id member =>
    ready.active id ((moves.mem_both id).2 (.inl (List.mem_singleton.1 member)))

/-- What holds of both transitions together holds of an image of each one. -/
theorem isMirrored {Holds : Proposal → Prop} (holds : Holds ⟨history, before, both⟩) :
    IsMirrored ⟨history, before, [first]⟩ chart Holds := by
  intro id member
  obtain rfl := List.mem_singleton.1 member
  exact ⟨left, ⟨history, before, both⟩, moves.leftward, moves.agreeWithin, ready, holds⟩

/-- What holds of each transition alone holds of the images of both. -/
theorem isMirrored_both {Holds : Proposal → Prop} (ofFirst : Holds ⟨history, before, [first]⟩)
    (ofSecond : Holds ⟨history, before, [second]⟩) :
    IsMirrored ⟨history, before, both⟩ chart Holds := by
  intro id member
  rcases (moves.mem_both id).1 member with rfl | rfl
  · exact ⟨left, _, moves.leftward, moves.agreeWithin.symm, moves.isReady ready, ofFirst⟩
  · exact ⟨right, _, moves.rightward, moves.symm.agreeWithin.symm, moves.symm.isReady ready,
      ofSecond⟩

/-- What a proposal inherits from those that mirror it holds of both transitions just if it holds
of each one alone. -/
theorem iff_of_inherits {Holds : Proposal → Prop}
    (inherits : ∀ proposal : Proposal, proposal.IsReady chart →
      proposal.IsMirrored chart Holds → Holds proposal) :
    Holds ⟨history, before, both⟩ ↔
      Holds ⟨history, before, [first]⟩ ∧ Holds ⟨history, before, [second]⟩ := by
  constructor
  · intro holds
    exact ⟨inherits _ (moves.isReady ready) (moves.isMirrored ready holds),
      inherits _ (moves.symm.isReady ready) (moves.symm.isMirrored ready holds)⟩
  · rintro ⟨ofFirst, ofSecond⟩
    exact inherits _ ready (moves.isMirrored_both ready ofFirst ofSecond)

end Ready

/-! ## Both together -/

section Together

variable (executable : chart.IsExecutable) (parallels : chart.ParallelsHaveChildren)
  (ready : IsReady ⟨history, before, both⟩ chart)
include executable parallels ready

theorem exists_settles_iff {rounds : Nat} :
    (∃ reached, Settles ⟨history, before, both⟩ chart rounds reached) ↔
      (∃ reached, Settles ⟨history, before, [first]⟩ chart rounds reached) ∧
        ∃ reached, Settles ⟨history, before, [second]⟩ chart rounds reached :=
  moves.iff_of_inherits ready fun _ readyOther mirrored =>
    mirrored.exists_settles executable readyOther parallels

theorem exists_succeeds_iff {rounds : Nat} :
    (∃ reached, Succeeds ⟨history, before, both⟩ chart rounds reached) ↔
      (∃ reached, Succeeds ⟨history, before, [first]⟩ chart rounds reached) ∧
        ∃ reached, Succeeds ⟨history, before, [second]⟩ chart rounds reached :=
  moves.iff_of_inherits ready fun _ readyOther mirrored =>
    mirrored.exists_succeeds executable readyOther parallels

/-- The expansion of both comes to an end if that of each one does. -/
theorem isEndless_iff :
    IsEndless ⟨history, before, both⟩ chart ↔
      IsEndless ⟨history, before, [first]⟩ chart ∨ IsEndless ⟨history, before, [second]⟩ chart := by
  rw [Proposal.isEndless_iff, Proposal.isEndless_iff, Proposal.isEndless_iff, ← not_and_or,
    not_iff_not]
  constructor
  · rintro ⟨rounds, isLess, settles⟩
    obtain ⟨ofFirst, ofSecond⟩ := (moves.exists_settles_iff executable parallels ready).1 settles
    exact ⟨⟨rounds, isLess, ofFirst⟩, rounds, isLess, ofSecond⟩
  · -- The one that settles first waits for the other.
    rintro ⟨⟨here, hereLess, last, settles⟩, there, thereLess, final, others⟩
    exact ⟨max here there, Nat.max_le.2 ⟨hereLess, thereLess⟩,
      (moves.exists_settles_iff executable parallels ready).2
        ⟨⟨last, settles.of_le (Nat.le_max_left here there)⟩,
          final, others.of_le (Nat.le_max_right here there)⟩⟩

/-- If it comes to an end, both break rules if one of them does. -/
theorem isIllegal_iff (ends : ¬ IsEndless ⟨history, before, both⟩ chart) :
    IsIllegal ⟨history, before, both⟩ chart ↔
      IsIllegal ⟨history, before, [first]⟩ chart ∨ IsIllegal ⟨history, before, [second]⟩ chart := by
  have tree := executable.tree
  rw [Proposal.isEndless_iff, not_not] at ends
  obtain ⟨rounds, isLess, reached, settles⟩ := ends
  obtain ⟨⟨one, ofFirst⟩, two, ofSecond⟩ :=
    (moves.exists_settles_iff executable parallels ready).1 ⟨reached, settles⟩
  rw [isIllegal_iff_of_settles tree isLess settles, isIllegal_iff_of_settles tree isLess ofFirst,
    isIllegal_iff_of_settles tree isLess ofSecond, ← not_and_or]
  exact not_congr (moves.exists_succeeds_iff executable parallels ready)

end Together

/-! ## One after the other -/

section InOrder

variable (executable : chart.IsExecutable) (parallels : chart.ParallelsHaveChildren)
  (ready : IsReady ⟨history, before, both⟩ chart)
include executable parallels ready

/-- Alone a transition changes no leaf outside its region. -/
theorem mem_iff_of_not_isWithin {rounds : Nat} {reached : Expansion}
    (isStage : stage ⟨history, before, [first]⟩ chart rounds = some reached) {leaf : NodeId}
    (outside : ¬ chart.isWithin leaf left = true) : leaf ∈ reached.leaves ↔ leaf ∈ before :=
  (moves.isReady ready).mem_iff_of_not_isWithin executable parallels moves.movesWithin isStage
    outside

/-- Together they change no leaf outside both regions. -/
theorem mem_iff_of_not_isWithin_both {rounds : Nat} {reached : Expansion}
    (isStage : stage ⟨history, before, both⟩ chart rounds = some reached) {leaf : NodeId}
    (outsideLeft : ¬ chart.isWithin leaf left = true)
    (outsideRight : ¬ chart.isWithin leaf right = true) :
    leaf ∈ reached.leaves ↔ leaf ∈ before := by
  have tree := executable.tree
  refine (ready.isFramed executable parallels isStage).outside leaf fun inScope => ?_
  rcases moves.isInScope_iff.1 inScope with inFirst | inSecond
  · exact outsideLeft (moves.isWithin_of_isInScope tree inFirst)
  · exact outsideRight (moves.symm.isWithin_of_isInScope tree inSecond)

variable {rounds : Nat} {one : Expansion} {later : NodeMap (List NodeId)}
  (succeeds : Succeeds ⟨history, before, [first]⟩ chart rounds one)
include succeeds

/-- The first transition leaves the other region alone. -/
theorem sameWithin_right : chart.SameWithin right one.leaves before :=
  fun leaf within => moves.mem_iff_of_not_isWithin executable parallels ready succeeds.isStage
    (moves.apart.symm leaf within)

/-- After the first transition the second one is ready. -/
theorem isReady_next (records : chart.RecordsAreValid later) :
    IsReady ⟨later, one.leaves, [second]⟩ chart where
  legal := succeeds.legal
  records := records
  active := by
    intro id member
    obtain rfl := List.mem_singleton.1 member
    have same := moves.sameWithin_right executable parallels ready succeeds
    exact same.symm.mem_active executable.tree
      (Chart.isWithin_of_isDescendant moves.rightward.source)
      (ready.active id ((moves.mem_both id).2 (.inr rfl)))

variable (recorded : ∀ id, (chart.node id).isHistory = true → chart.isDescendant id right = true →
  later.find? id = history.find? id)
include recorded

/-- Within its region the second transition then does what both do together. -/
theorem agreeWithin_next :
    AgreeWithin chart right ⟨later, one.leaves, [second]⟩ ⟨history, before, both⟩ where
  leaves := moves.sameWithin_right executable parallels ready succeeds
  records := recorded
  forth := by
    intro id member
    obtain rfl := List.mem_singleton.1 member
    exact .inl ⟨moves.rightward, (moves.mem_both id).2 (.inr rfl)⟩
  back := by
    intro id member
    rcases (moves.mem_both id).1 member with rfl | rfl
    · exact .inr ⟨left, moves.apart, moves.leftward⟩
    · exact .inl ⟨moves.rightward, List.mem_singleton_self id⟩

/-- The second transition succeeds as both do, and leads to the same leaves. -/
theorem exists_succeeds_next (records : chart.RecordsAreValid later) {together : Expansion}
    (bothSucceed : Succeeds ⟨history, before, both⟩ chart rounds together) :
    ∃ two, Succeeds ⟨later, one.leaves, [second]⟩ chart rounds two ∧
      two.leaves = together.leaves := by
  have agree := moves.agreeWithin_next executable parallels ready succeeds recorded
  have readyNext := moves.isReady_next executable parallels ready succeeds records
  have mirrored : IsMirrored ⟨later, one.leaves, [second]⟩ chart
      (fun other => ∃ reached, other.Succeeds chart rounds reached) := fun id member =>
    ⟨right, _, moves.symm.movesWithin id member, agree, ready, together, bothSucceed⟩
  obtain ⟨two, succeedsNext⟩ := mirrored.exists_succeeds executable readyNext parallels
  refine ⟨two, succeedsNext, NodeSet.ext fun leaf => ?_⟩
  by_cases inRight : chart.isWithin leaf right = true
  · exact agree.sameWithin_of_stage executable readyNext ready parallels succeedsNext.isStage
      bothSucceed.isStage leaf inRight
  · rw [readyNext.mem_iff_of_not_isWithin executable parallels moves.symm.movesWithin
      succeedsNext.isStage inRight]
    by_cases inLeft : chart.isWithin leaf left = true
    · exact moves.agreeWithin.sameWithin_of_stage executable (moves.isReady ready) ready parallels
        succeeds.isStage bothSucceed.isStage leaf inLeft
    · rw [moves.mem_iff_of_not_isWithin executable parallels ready succeeds.isStage inLeft,
        moves.mem_iff_of_not_isWithin_both executable parallels ready bothSucceed.isStage inLeft
          inRight]

end InOrder

end MoveApart

/-- Exited is what is active in scope. -/
theorem IsReady.mem_exited_iff {proposal : Proposal} (ready : proposal.IsReady chart)
    (executable : chart.IsExecutable) {resolution : Resolution}
    (done : proposal.resolve chart = .ok resolution) {node : NodeId} :
    node ∈ resolution.exited ↔ node ∈ chart.active proposal.before ∧
      chart.IsInScope proposal.transitions node :=
  (Chart.mem_exited_iff done).trans (executable.mem_leavesBehind_iff ready.legal ready.active)

end Proposal

/-- The proposal to take transitions where a machine stands. -/
def Status.propose (status : Status) (transitions : List TransitionId) : Proposal :=
  ⟨status.history, status.leaves, transitions⟩

namespace World

variable {chart : Chart} {status next : Status} {left right : NodeId}
variable {first second : TransitionId} {both : List TransitionId}

/-! ## Records -/

section Records

variable (moves : Proposal.MoveApart chart left right first second both)
  (executable : chart.IsExecutable) (ready : (status.propose both).IsReady chart)
include moves executable ready

/-- A transition makes no history record that lies within the other region. -/
theorem find?_recordsAfter_of_isDescendant {resolution : Resolution}
    (done : (status.propose [first]).resolve chart = .ok resolution) {id : NodeId}
    (isHistory : (chart.node id).isHistory = true) (below : chart.isDescendant id right = true) :
    (recordsAfter chart status resolution).find? id = status.history.find? id := by
  have tree := executable.tree
  obtain ⟨owner, isOwner, within⟩ := tree.isDescendant_iff_parent.1 below
  cases kind : (chart.node id).kind with
  | history sort default =>
      rw [find?_recordsAfter tree kind isOwner, if_neg]
      intro exited
      have inScope := (((moves.isReady ready).mem_exited_iff executable done).1 exited).2
      exact moves.apart owner (moves.isWithin_of_isInScope tree inScope) within
  | _ => simp [Node.isHistory, kind] at isHistory

section Next

variable (readyNext : (next.propose [second]).IsReady chart)
  (same : chart.SameWithin right next.leaves status.leaves)
  {resolution resolutionNext together : Resolution}
  (done : (status.propose [first]).resolve chart = .ok resolution)
  (doneNext : (next.propose [second]).resolve chart = .ok resolutionNext)
  (bothDone : (status.propose both).resolve chart = .ok together)
include readyNext same done doneNext bothDone

/-- Both exit what one exits and then the other. -/
theorem mem_exited_both {node : NodeId} :
    node ∈ together.exited ↔ node ∈ resolution.exited ∨ node ∈ resolutionNext.exited := by
  have tree := executable.tree
  have stays (inSecond : chart.IsInScope [second] node) :
      node ∈ chart.active next.leaves ↔ node ∈ chart.active status.leaves :=
    have within := moves.symm.isWithin_of_isInScope tree inSecond
    ⟨same.mem_active tree within, same.symm.mem_active tree within⟩
  rw [(moves.isReady ready).mem_exited_iff executable done,
    readyNext.mem_exited_iff executable doneNext, ready.mem_exited_iff executable bothDone]
  show node ∈ chart.active status.leaves ∧ chart.IsInScope both node ↔
    node ∈ chart.active status.leaves ∧ chart.IsInScope [first] node ∨
      node ∈ chart.active next.leaves ∧ chart.IsInScope [second] node
  rw [moves.isInScope_iff, and_or_left, and_congr_left stays]

/-- Of one transition after the other the same is recorded as of both together. -/
theorem recordsAfter_next (history_eq : next.history = recordsAfter chart status resolution) :
    recordsAfter chart next resolutionNext = recordsAfter chart status together := by
  have tree := executable.tree
  ext id
  cases kind : (chart.node id).kind with
  | history sort default =>
      have notRoot : (chart.node id).isRoot = false := by simp [Node.isRoot, kind]
      have proper := tree.isProper_of_not_isRoot notRoot
      obtain ⟨owner, isOwner, -⟩ := tree.exists_parent id proper.1 proper.2
      have exits : owner ∈ together.exited ↔ _ :=
        mem_exited_both moves executable ready readyNext same done doneNext bothDone
      rw [find?_recordsAfter tree kind isOwner, find?_recordsAfter tree kind isOwner, history_eq,
        find?_recordsAfter tree kind isOwner]
      by_cases exitedNext : owner ∈ resolutionNext.exited
      · -- Within the second region the first transition has changed nothing.
        have inSecond := ((readyNext.mem_exited_iff executable doneNext).1 exitedNext).2
        have within := moves.symm.isWithin_of_isInScope tree inSecond
        rw [if_pos exitedNext, if_pos (exits.2 (.inr exitedNext)), recordOf_congr tree
          fun leaf below => same leaf
            (tree.isWithin_trans (Chart.isWithin_of_isDescendant below) within)]
      · rw [or_iff_left exitedNext] at exits
        rw [if_neg exitedNext]
        simp only [exits]
  | _ =>
      have notHistory : (chart.node id).isHistory = false := by simp [Node.isHistory, kind]
      rw [find?_recordsAfter_of_notHistory notHistory, find?_recordsAfter_of_notHistory notHistory,
        history_eq, find?_recordsAfter_of_notHistory notHistory]

end Next

end Records

/-! ## Taking transitions -/

/-- Takes transitions in one microstep: resolves them where the machine stands, and carries the
resolution out. -/
def take (world : World) (chart : Chart) (events : List Event) (transitions : List TransitionId) :
    Except ResolutionFault World :=
  ((world.status.propose transitions).resolve chart).map
    (world.carryOut chart events transitions)

/-- Transitions are refused since the next configuration would break rules. -/
def Refuses (world : World) (chart : Chart) (events : List Event)
    (transitions : List TransitionId) : Prop :=
  ∃ violations, world.take chart events transitions = .error (.illegal violations)

/-- Two worlds in which the same leaves are active and the same is recorded. -/
structure SameStanding (first second : World) : Prop where
  leaves_eq : first.status.leaves = second.status.leaves
  history_eq : first.status.history = second.status.history

section Take

variable {world : World} {events : List Event} {transitions : List TransitionId}

theorem take_eq_error_iff {fault : ResolutionFault} :
    world.take chart events transitions = .error fault ↔
      (world.status.propose transitions).resolve chart = .error fault := by
  rw [take]
  cases (world.status.propose transitions).resolve chart <;> simp [Except.map]

theorem take_eq_ok_iff {after : World} :
    world.take chart events transitions = .ok after ↔
      ∃ resolution, (world.status.propose transitions).resolve chart = .ok resolution ∧
        world.carryOut chart events transitions resolution = after := by
  rw [take]
  cases (world.status.propose transitions).resolve chart <;> simp [Except.map]

/-- Transitions that succeed are taken, and their resolution is carried out. -/
theorem exists_take (tree : chart.IsTree) {rounds : Nat} {reached : Expansion}
    (succeeds : (world.status.propose transitions).Succeeds chart rounds reached)
    (isLess : rounds ≤ chart.nodeCount) (events : List Event) :
    ∃ after, world.take chart events transitions = .ok after ∧
      CarriesOut chart (chart.resolutionOf world.status.leaves transitions reached) world
        after :=
  ⟨_, take_eq_ok_iff.2 ⟨_, succeeds.resolve_eq tree isLess, rfl⟩,
    carriesOut_carryOut world chart events transitions _⟩

theorem exists_succeeds_of_take (tree : chart.IsTree) {after : World}
    (taken : world.take chart events transitions = .ok after) :
    ∃ rounds ≤ chart.nodeCount, ∃ reached,
      (world.status.propose transitions).Succeeds chart rounds reached ∧
        CarriesOut chart (chart.resolutionOf world.status.leaves transitions reached) world
          after := by
  obtain ⟨resolution, done, rfl⟩ := take_eq_ok_iff.1 taken
  obtain ⟨rounds, isLess, reached, succeeds, rfl⟩ := (Proposal.resolve_eq_ok_iff tree).1 done
  exact ⟨rounds, isLess, reached, succeeds, carriesOut_carryOut world chart events _ _⟩

/-- A microstep takes the transitions that it chooses, where the machine stands. -/
theorem exists_take_of_microstep {after : World} {program : Program}
    {initial : Option TransitionId}
    (done : world.microstep program initial events = .ok (transitions, after)) :
    ∃ chosen taken : World, chosen.status = world.status ∧
      chosen.take program.chart events transitions = .ok taken ∧ after.SameStanding taken := by
  obtain ⟨asked, chosen, resolution, clears, -, chooses, resolved, rfl⟩ :=
    exists_carryOut_of_microstep done
  have choosing := Solitary.choose asked program initial events
  rw [chooses] at choosing
  have starts := (Hushed.startPending (chosen.carryOut program.chart events transitions resolution)
    program.chart program.registry events
    ((chosen.carryOut program.chart events transitions resolution).active program)).toQuiet
  exact ⟨chosen, _, (clears.toQuiet.trans choosing.toQuiet).status_eq,
    take_eq_ok_iff.2 ⟨resolution, resolved, rfl⟩, congrArg Status.leaves starts.status_eq,
    congrArg Status.history starts.status_eq⟩

end Take

/-- What two transitions in regions apart do together they do one after the other. -/
theorem exists_take_in_order {world together : World} {events : List Event}
    (moves : Proposal.MoveApart chart left right first second both)
    (executable : chart.IsExecutable) (parallels : chart.ParallelsHaveChildren)
    (ready : (world.status.propose both).IsReady chart)
    (taken : world.take chart events both = .ok together) (later : List Event) :
    ∃ one two, world.take chart events [first] = .ok one ∧
      one.take chart later [second] = .ok two ∧ two.SameStanding together := by
  have tree := executable.tree
  obtain ⟨rounds, isLess, reached, succeeds, carriesBoth⟩ := exists_succeeds_of_take tree taken
  -- The first transition is carried out alone.
  obtain ⟨⟨start, starts⟩, -⟩ :=
    (moves.exists_succeeds_iff executable parallels ready).1 ⟨reached, succeeds⟩
  obtain ⟨one, oneTaken, carries⟩ := exists_take tree starts isLess events
  have done := starts.resolve_eq tree isLess
  have recorded : ∀ id, (chart.node id).isHistory = true → chart.isDescendant id right = true →
      one.status.history.find? id = world.status.history.find? id := by
    rw [carries.history_eq]
    exact fun id => find?_recordsAfter_of_isDescendant moves executable ready done
  have valid : chart.RecordsAreValid one.status.history := by
    rw [carries.history_eq]
    exact recordsAreValid_recordsAfter executable ready.legal.atomic rfl ready.records
      fun node exited => (((moves.isReady ready).mem_exited_iff executable done).1 exited).1
  -- Then the second one is carried out.
  obtain ⟨final, succeedsNext, leaves_eq⟩ := moves.exists_succeeds_next executable parallels ready
    starts recorded valid succeeds
  have readyNext := moves.isReady_next executable parallels ready starts valid
  have same := moves.sameWithin_right executable parallels ready starts
  have isStart : start.leaves = one.status.leaves := carries.leaves_eq.symm
  rw [isStart] at succeedsNext readyNext same
  obtain ⟨two, twoTaken, carriesNext⟩ := exists_take tree succeedsNext isLess later
  refine ⟨one, two, oneTaken, twoTaken, ?_, ?_⟩
  · exact carriesNext.leaves_eq.trans (leaves_eq.trans carriesBoth.leaves_eq.symm)
  · rw [carriesNext.history_eq, carriesBoth.history_eq]
    exact recordsAfter_next moves executable ready readyNext same done
      (succeedsNext.resolve_eq tree isLess) (succeeds.resolve_eq tree isLess) carries.history_eq

/-- Two transitions that move below different children of a node, which is then an active
parallel, can be taken together or one after the other, in either order: in the end the same
leaves are active and the same is recorded.  Whether their expansion comes to an end, and whether
they break rules, can be told from each one alone. -/
theorem regions_move_independently {definition : Definition}
    (accepted : Machine.chartOf definition = .ok chart) (parallels : chart.ParallelsHaveChildren)
    {world : World} (legal : chart.IsLegalConfiguration world.status.leaves)
    (records : chart.RecordsAreValid world.status.history) {parallel : NodeId}
    (isLeft : left ∈ (chart.node parallel).children)
    (isRight : right ∈ (chart.node parallel).children) (different : left ≠ right)
    (leftward : chart.MovesWithin left first) (rightward : chart.MovesWithin right second)
    (firstActive : (chart.transition first).source ∈ world.status.active chart)
    (secondActive : (chart.transition second).source ∈ world.status.active chart)
    (events : List Event) :
    (world.take chart events [first, second] = .error .endless ↔
      world.take chart events [first] = .error .endless ∨
        world.take chart events [second] = .error .endless) ∧
    (world.take chart events [first, second] ≠ .error .endless →
      (world.Refuses chart events [first, second] ↔
        world.Refuses chart events [first] ∨ world.Refuses chart events [second])) ∧
    ∀ together, world.take chart events [first, second] = .ok together → ∀ later : List Event,
      (∃ one two, world.take chart events [first] = .ok one ∧
        one.take chart later [second] = .ok two ∧ two.SameStanding together) ∧
      ∃ one two, world.take chart events [second] = .ok one ∧
        one.take chart later [first] = .ok two ∧ two.SameStanding together := by
  have executable := Chart.isExecutable_of_chartOf accepted
  have tree := executable.tree
  have moves : Proposal.MoveApart chart left right first second [first, second] :=
    ⟨tree.areApart_of_siblings different (tree.parent_of_mem_children isLeft)
      (tree.parent_of_mem_children isRight), leftward, rightward, fun id => by simp⟩
  have ready : (world.status.propose [first, second]).IsReady chart := by
    refine ⟨legal, fun id member => ?_, records⟩
    rcases (moves.mem_both id).1 member with rfl | rfl
    · exact firstActive
    · exact secondActive
  refine ⟨?_, fun ends => ?_, fun together taken later => ⟨?_, ?_⟩⟩
  · rw [take_eq_error_iff, take_eq_error_iff, take_eq_error_iff]
    exact moves.isEndless_iff executable parallels ready
  · simp only [Refuses, take_eq_error_iff]
    exact moves.isIllegal_iff executable parallels ready (mt take_eq_error_iff.2 ends)
  · exact exists_take_in_order moves executable parallels ready taken later
  · exact exists_take_in_order moves.symm executable parallels ready taken later

/-! ## A theatre -/

/-- A parallel of two regions, one of which holds a history and another parallel.  The bell calls
the stage back from its pause to what it was doing, and the audience to its seats. -/
def theatre : Definition :=
  { states := [
      { id := some "theatre", isParallel := true, states := [
        { id := some "stage", histories := [{ id := some "again", kind := .deep }], states := [
          { id := some "pause", transitions := [{ event := some "bell", target := some "again" }] },
          { id := some "scene", isParallel := true, states := [
            { id := some "light", states := [{ id := some "dim" }, { id := some "bright" }] },
            { id := some "sound", states := [{ id := some "mute" }, { id := some "loud" }] }] }] },
        { id := some "hall", states := [
          { id := some "foyer", transitions := [{ event := some "bell", target := some "seats" }] },
          { id := some "seats" }] }] }] }

/-- The pause after a bright and loud scene, with the audience in the foyer. -/
def inPause : World :=
  { status := { leaves := .ofList [4, 13], history := .insert ∅ 3 [8, 11] } }

/-- The bell can be rung for both regions at once, or for one after the other. -/
theorem bell_rings_for_both :
    (Machine.chartOf theatre = .ok (Machine.chartOrEmpty theatre) ∧
      (Machine.chartOrEmpty theatre).ParallelsHaveChildren ∧
      (Machine.chartOrEmpty theatre).IsLegalConfiguration inPause.status.leaves ∧
      (Machine.chartOrEmpty theatre).RecordsAreValid inPause.status.history ∧
      2 ∈ ((Machine.chartOrEmpty theatre).node 1).children ∧
      12 ∈ ((Machine.chartOrEmpty theatre).node 1).children ∧
      (Machine.chartOrEmpty theatre).MovesWithin 2 1 ∧
      (Machine.chartOrEmpty theatre).MovesWithin 12 2 ∧
      ∀ id ∈ [1, 2], ((Machine.chartOrEmpty theatre).transition id).source ∈
        inPause.status.active (Machine.chartOrEmpty theatre)) ∧
    ∃ together one two, inPause.take (Machine.chartOrEmpty theatre) [] [1, 2] = .ok together ∧
      inPause.take (Machine.chartOrEmpty theatre) [] [2] = .ok one ∧
      one.take (Machine.chartOrEmpty theatre) [] [1] = .ok two ∧ two.SameStanding together ∧
      together.status.leaves = .ofList [8, 11, 14] := by
  -- The chart is evaluated once for all that is read off it.
  obtain ⟨isOk, withChildren, noViolations, recorded, isStage, isHall, onStage, inHall, active,
      after⟩ :
      (Machine.chartOf theatre).isOk = true ∧
      (Machine.chartOrEmpty theatre).nodes.all
        (fun node => !node.isParallel || !node.children.isEmpty) = true ∧
      (Machine.chartOrEmpty theatre).violations inPause.status.leaves = [] ∧
      inPause.status.history.entries.all (fun entry => !entry.2.isEmpty &&
        entry.2.all (fun node => (Machine.chartOrEmpty theatre).isDescendant node
          (((Machine.chartOrEmpty theatre).parent entry.1).getD rootId))) = true ∧
      2 ∈ ((Machine.chartOrEmpty theatre).node 1).children ∧
      12 ∈ ((Machine.chartOrEmpty theatre).node 1).children ∧
      (Machine.chartOrEmpty theatre).MovesWithin 2 1 ∧
      (Machine.chartOrEmpty theatre).MovesWithin 12 2 ∧
      (∀ id ∈ [1, 2], ((Machine.chartOrEmpty theatre).transition id).source ∈
        inPause.status.active (Machine.chartOrEmpty theatre)) ∧
      (inPause.take (Machine.chartOrEmpty theatre) [] [1, 2]).toOption.map
        (fun world => world.status.leaves) = some (.ofList [8, 11, 14]) := by
    decide +kernel
  have accepted := Machine.chartOf_eq_ok isOk
  have parallels := Chart.parallelsHaveChildren_of_all withChildren
  have legal := Chart.isLegalConfiguration_of_violations accepted noViolations
  have records := Chart.recordsAreValid_of_all recorded
  obtain ⟨-, -, inOrder⟩ := regions_move_independently accepted parallels legal records isStage
    isHall (by decide) onStage inHall (active 1 (by decide)) (active 2 (by decide)) []
  cases taken : inPause.take (Machine.chartOrEmpty theatre) [] [1, 2] with
  | error fault =>
      rw [taken] at after
      cases after
  | ok together =>
      rw [taken] at after
      obtain ⟨-, one, two, oneTaken, twoTaken, same⟩ := inOrder together taken []
      exact ⟨⟨accepted, parallels, legal, records, isStage, isHall, onStage, inHall, active⟩,
        together, one, two, rfl, oneTaken, twoTaken, same, Option.some.inj after⟩

end World

end Statechart
