import Statechart.Proofs.Microstep.Execution
import Statechart.Proofs.Microstep.Resolution

/-!
# Completion in a microstep

A final state that is exited reopens its parent, and one that is entered finishes it;
the parallel of which the parent is a region follows.  States that are entered start
anew.  This file says which states are done after a microstep, and which events told
of it, by the states that were exited and entered.
-/

namespace Statechart

namespace Chart

/-- A child that is a final state. -/
def IsFinalChild (chart : Chart) (child state : NodeId) : Prop :=
  chart.parent child = some state ∧ (chart.node child).isFinal = true

/-- A node is the parent of a final state, or the parallel above that parent. -/
def Reopens (chart : Chart) (child state : NodeId) : Prop :=
  ∃ parent, chart.IsFinalChild child parent ∧
    (state = parent ∨ chart.isRegion parent = true ∧ chart.parent parent = some state)

/-- A final state finishes its parent, and the parallel above the parent if all other
regions are done. -/
def Finishes (chart : Chart) (done : NodeSet) (child state : NodeId) : Prop :=
  ∃ parent, chart.IsFinalChild child parent ∧ parent ≠ rootId ∧
    (state = parent ∨ chart.isRegion parent = true ∧ chart.parent parent = some state ∧
      ∀ region ∈ (chart.node state).children, region = parent ∨ region ∈ done)

/-- A final state that lies at the top. -/
def IsTopFinal (chart : Chart) (node : NodeId) : Prop :=
  (chart.node node).isFinal = true ∧ (chart.parent node).getD rootId = rootId

variable {chart : Chart}

theorem exists_parallel_of_isRegion {node : NodeId} (isRegion : chart.isRegion node = true) :
    ∃ parallel, chart.parent node = some parallel ∧ (chart.node parallel).isParallel = true := by
  unfold Chart.isRegion at isRegion
  split at isRegion
  · cases isRegion
  · split at isRegion
    · next parallel isParent => exact ⟨parallel, isParent, isRegion⟩
    · cases isRegion

theorem reopens_iff {child state : NodeId} (notParallel : (chart.node state).isParallel = false) :
    chart.Reopens child state ↔ chart.IsFinalChild child state := by
  constructor
  · rintro ⟨parent, isFinalChild, rfl | ⟨isRegion, isUpper⟩⟩
    · exact isFinalChild
    · obtain ⟨parallel, isParallelOf, isParallel⟩ := exists_parallel_of_isRegion isRegion
      obtain rfl := Option.some.inj (isUpper.symm.trans isParallelOf)
      exact absurd (notParallel.symm.trans isParallel) Bool.false_ne_true
  · exact fun isFinalChild => ⟨state, isFinalChild, .inl rfl⟩

theorem finishes_iff {done : NodeSet} {child state : NodeId}
    (notParallel : (chart.node state).isParallel = false) (notRoot : state ≠ rootId) :
    chart.Finishes done child state ↔ chart.IsFinalChild child state := by
  constructor
  · rintro ⟨parent, isFinalChild, -, rfl | ⟨isRegion, isUpper, -⟩⟩
    · exact isFinalChild
    · exact (reopens_iff notParallel).1 ⟨parent, isFinalChild, .inr ⟨isRegion, isUpper⟩⟩
  · exact fun isFinalChild => ⟨state, isFinalChild, notRoot, .inl rfl⟩

section FinalChild

variable {child parent : NodeId} (isParent : chart.parent child = some parent)
  (isFinal : (chart.node child).isFinal = true)
include isParent isFinal

theorem isFinalChild_iff {state : NodeId} : chart.IsFinalChild child state ↔ state = parent := by
  rw [IsFinalChild, isParent, and_iff_left isFinal, Option.some.injEq, eq_comm]

theorem finishes_iff_of_parent (notRoot : parent ≠ rootId) {done : NodeSet} {state : NodeId} :
    chart.Finishes done child state ↔
      state = parent ∨ chart.isRegion parent = true ∧ chart.parent parent = some state ∧
        ∀ region ∈ (chart.node state).children, region = parent ∨ region ∈ done := by
  constructor
  · rintro ⟨other, isOther, -, marks⟩
    obtain rfl := (isFinalChild_iff isParent isFinal).1 isOther
    exact marks
  · exact fun marks => ⟨parent, ⟨isParent, isFinal⟩, notRoot, marks⟩

/-- A final state in a region finishes the parallel above it together with the last region. -/
theorem finishes_iff_of_region (notRoot : parent ≠ rootId) (isRegion : chart.isRegion parent = true)
    {parallel : NodeId} (isUpper : chart.parent parent = some parallel) {done : NodeSet}
    {state : NodeId} :
    chart.Finishes done child state ↔
      state = parent ∨ state = parallel ∧
        ∀ region ∈ (chart.node parallel).children, region = parent ∨ region ∈ done := by
  rw [finishes_iff_of_parent isParent isFinal notRoot, isUpper, Option.some.injEq]
  refine or_congr_right ⟨?_, ?_⟩
  · rintro ⟨-, rfl, all⟩
    exact ⟨rfl, all⟩
  · rintro ⟨rfl, all⟩
    exact ⟨isRegion, rfl, all⟩

end FinalChild

theorem Finishes.isProper (tree : chart.IsTree) {done : NodeSet} {child state : NodeId}
    (finishes : chart.Finishes done child state) : chart.IsProper state := by
  obtain ⟨parent, isFinalChild, notRoot, rfl | ⟨isRegion, isUpper, -⟩⟩ := finishes
  · exact ⟨notRoot, tree.parent_lt_nodeCount isFinalChild.1⟩
  · obtain ⟨parallel, isParallelOf, isParallel⟩ := exists_parallel_of_isRegion isRegion
    obtain rfl := Option.some.inj (isUpper.symm.trans isParallelOf)
    exact tree.isProper_of_isParallel isParallel

end Chart

namespace World

variable {chart : Chart} {node : NodeId}

/-! ## Exits -/

/-- What the exit of a state does to the flags, and which event tells of it. -/
structure IsExit (chart : Chart) (node : NodeId) (before after : World) : Prop where
  mem_done : ∀ state, state ∈ after.status.done ↔
    state ∈ before.status.done ∧ ¬ chart.Reopens node state
  isFinal_eq : after.status.isFinal = before.status.isFinal
  completions_eq : after.completions =
    before.completions ++ [.ofCompletion (chart.idOf node ++ ".exit")]

theorem mem_done_leaveFinal {status : Status} {state : NodeId}
    (isFinal : (chart.node node).isFinal = true) :
    state ∈ (leaveFinal chart node status).done ↔
      state ∈ status.done ∧ ¬ chart.Reopens node state := by
  rw [leaveFinal]
  cases isParent : chart.parent node with
  | none => simp [Chart.Reopens, Chart.IsFinalChild, isParent]
  | some parent =>
      have reopens : chart.Reopens node state ↔
          state = parent ∨ chart.isRegion parent = true ∧ chart.parent parent = some state := by
        simp [Chart.Reopens, Chart.IsFinalChild, isParent, isFinal]
      rw [reopens, not_or, not_and]
      cases isRegion : chart.isRegion parent with
      | false => simp [NodeSet.mem_erase, isRegion]
      | true =>
          cases isUpper : chart.parent parent with
          | none => simp [NodeSet.mem_erase, isRegion, isUpper]
          | some parallel =>
              simp [NodeSet.mem_erase, isRegion, isUpper, and_assoc, ne_comm]

theorem isFinal_leaveFinal (status : Status) :
    (leaveFinal chart node status).isFinal = status.isFinal := by
  unfold leaveFinal
  dsimp only
  repeat' split
  all_goals rfl

theorem Hushed.signal {before after : World} (hushed : Hushed before after)
    (observation : Observation) (name : String) :
    ((after.observe observation).emit (.ofCompletion name)).status = before.status ∧
      ((after.observe observation).emit (.ofCompletion name)).completions =
        before.completions ++ [.ofCompletion name] := by
  refine ⟨hushed.status_eq, ?_⟩
  rw [completions_emit, ← hushed.completions_eq]
  rfl

theorem isExit_exitState (events : List Event) (active : NodeSet) (world : World)
    (node : NodeId) :
    IsExit chart node world (exitState chart events active world node) := by
  have ran := (Hushed.cancelService chart world node).trans
    (Solitary.run _ ⟨chart, node, events, active⟩ (chart.node node).onExit).toHushed
  obtain ⟨status, completions⟩ := ran.signal (.exited (chart.idOf node))
    (chart.idOf node ++ ".exit")
  unfold exitState
  dsimp only
  split
  · next isFinal =>
      refine ⟨fun state => ?_, ?_, completions⟩
      · rw [← status]
        exact mem_done_leaveFinal isFinal
      · rw [← status]
        exact isFinal_leaveFinal _
  · next notFinal =>
      refine ⟨fun state => ?_, congrArg Status.isFinal status, completions⟩
      have stays : ¬ chart.Reopens node state :=
        fun ⟨parent, isFinalChild, _⟩ => notFinal isFinalChild.2
      rw [← status, and_iff_left stays]
      rfl

/-! ## Entries -/

/-- What the entry of a state does to the flags, and which events tell of it. -/
structure IsEntry (chart : Chart) (node : NodeId) (before after : World) : Prop where
  mem_done : ∀ state, state ∈ after.status.done ↔
    (state ∈ before.status.done ∧ state ≠ node) ∨
      chart.Finishes (before.status.done.erase node) node state
  isFinal_iff : after.status.isFinal = true ↔
    before.status.isFinal = true ∨ chart.IsTopFinal node
  mem_completions : ∀ event, event ∈ after.completions ↔ event ∈ before.completions ∨
    event = .ofCompletion (chart.idOf node ++ ".entry") ∨
    ∃ state, event = .ofCompletion (chart.idOf state ++ ".done") ∧
      chart.Finishes (before.status.done.erase node) node state ∧
      (chart.IsFinalChild node state ∨ ¬ state ∈ before.status.done.erase node)

theorem completeParallel_spec (world : World) (parallel : NodeId) :
    (∀ state, state ∈ (completeParallel chart world parallel).status.done ↔
      state ∈ world.status.done ∨ state = parallel ∧
        ∀ region ∈ (chart.node parallel).children, region ∈ world.status.done) ∧
    (completeParallel chart world parallel).status.isFinal = world.status.isFinal ∧
    ∀ event, event ∈ (completeParallel chart world parallel).completions ↔
      event ∈ world.completions ∨ event = .ofCompletion (chart.idOf parallel ++ ".done") ∧
        (∀ region ∈ (chart.node parallel).children, region ∈ world.status.done) ∧
        ¬ parallel ∈ world.status.done := by
  unfold completeParallel
  dsimp only
  split
  · next completes =>
      rw [Bool.and_eq_true, List.all_eq_true, Bool.not_eq_true'] at completes
      simp only [NodeSet.contains_iff, NodeSet.contains_eq_false_iff] at completes
      refine ⟨fun state => ?_, rfl, fun event => ?_⟩
      · show state ∈ world.status.done.insert parallel ↔ _
        rw [NodeSet.mem_insert, or_comm, and_iff_left completes.1]
      · rw [completions_emit, List.mem_append, and_iff_left completes]
        refine or_congr Iff.rfl ?_
        simp [Event.ofCompletion, Event.isCompletion]
  · next fails =>
      rw [Bool.and_eq_true, List.all_eq_true, Bool.not_eq_true'] at fails
      simp only [NodeSet.contains_iff, NodeSet.contains_eq_false_iff] at fails
      refine ⟨fun state => ?_, rfl, fun event => ?_⟩
      · refine (or_iff_left_of_imp ?_).symm
        rintro ⟨rfl, all⟩
        exact Decidable.not_not.1 fun absent => fails ⟨all, absent⟩
      · exact (or_iff_left fun signals => fails signals.2).symm

theorem enterFinal_of_top (world : World) (top : (chart.parent node).getD rootId = rootId) :
    enterFinal chart world node =
      world.modifyStatus (fun status => { status with isFinal := true }) := by
  unfold enterFinal
  cases isParent : chart.parent node with
  | none => rfl
  | some parent =>
      rw [isParent] at top
      exact if_pos top

/-- A world in which the completion of a state is signalled. -/
def markDone (chart : Chart) (world : World) (state : NodeId) : World :=
  (world.emit (.ofCompletion (chart.idOf state ++ ".done"))).modifyStatus
    (fun status => { status with done := status.done.insert state })

theorem enterFinal_of_parent (world : World) {parent : NodeId}
    (isParent : chart.parent node = some parent) (notRoot : parent ≠ rootId) :
    (chart.isRegion parent = false ∧ enterFinal chart world node = markDone chart world parent) ∨
      ∃ parallel, chart.isRegion parent = true ∧ chart.parent parent = some parallel ∧
        enterFinal chart world node =
          completeParallel chart (markDone chart world parent) parallel := by
  unfold enterFinal
  rw [isParent]
  dsimp only
  rw [if_neg notRoot]
  cases isRegion : chart.isRegion parent with
  | false => exact .inl ⟨rfl, rfl⟩
  | true =>
      obtain ⟨parallel, isUpper, -⟩ := Chart.exists_parallel_of_isRegion isRegion
      rw [isUpper]
      exact .inr ⟨parallel, rfl, rfl, rfl⟩

theorem mem_done_markDone {world : World} {parent state : NodeId} :
    state ∈ (markDone chart world parent).status.done ↔
      state = parent ∨ state ∈ world.status.done :=
  NodeSet.mem_insert

theorem completions_markDone (world : World) (parent : NodeId) :
    (markDone chart world parent).completions =
      world.completions ++ [.ofCompletion (chart.idOf parent ++ ".done")] :=
  completions_emit world _

/-- What a state that is entered finishes, once it has started anew, and which events tell
of that. -/
structure IsFinish (chart : Chart) (node : NodeId) (before after : World) : Prop where
  mem_done : ∀ state, state ∈ after.status.done ↔
    state ∈ before.status.done ∨ chart.Finishes before.status.done node state
  isFinal_iff : after.status.isFinal = true ↔
    before.status.isFinal = true ∨ chart.IsTopFinal node
  mem_completions : ∀ event, event ∈ after.completions ↔ event ∈ before.completions ∨
    ∃ state, event = .ofCompletion (chart.idOf state ++ ".done") ∧
      chart.Finishes before.status.done node state ∧
      (chart.IsFinalChild node state ∨ ¬ state ∈ before.status.done)

theorem isFinish_of_nothing {before after : World}
    (nothing : ∀ state, ¬ chart.Finishes before.status.done node state)
    (done : after.status.done = before.status.done)
    (completions : after.completions = before.completions)
    (isFinal : after.status.isFinal = true ↔
      before.status.isFinal = true ∨ chart.IsTopFinal node) :
    IsFinish chart node before after := by
  refine ⟨fun state => ?_, isFinal, fun event => ?_⟩
  · rw [done, or_iff_left (nothing state)]
  · rw [completions]
    refine (or_iff_left ?_).symm
    rintro ⟨state, -, finishes, -⟩
    exact nothing state finishes

section EnterFinal

variable (world : World) (isFinal : (chart.node node).isFinal = true)
include isFinal

theorem isFinish_at_top (top : (chart.parent node).getD rootId = rootId) :
    IsFinish chart node world (enterFinal chart world node) := by
  rw [enterFinal_of_top world top]
  refine isFinish_of_nothing ?_ rfl rfl ⟨fun _ => .inr ⟨isFinal, top⟩, fun _ => rfl⟩
  rintro state ⟨parent, ⟨isParent, -⟩, notRoot, -⟩
  rw [isParent] at top
  exact notRoot top

theorem isFinish_below {parent : NodeId} (isParent : chart.parent node = some parent)
    (notRoot : parent ≠ rootId) : IsFinish chart node world (enterFinal chart world node) := by
  have notTop : ¬ chart.IsTopFinal node := by
    rintro ⟨-, top⟩
    rw [isParent] at top
    exact notRoot top
  rcases enterFinal_of_parent world isParent notRoot with
    ⟨notRegion, result⟩ | ⟨parallel, isRegion, isUpper, result⟩
  · rw [result]
    refine ⟨fun state => ?_, (or_iff_left notTop).symm, fun event => ?_⟩
    · rw [mem_done_markDone, Chart.finishes_iff_of_parent isParent isFinal notRoot, notRegion]
      simp [or_comm]
    · rw [completions_markDone]
      simp [Chart.finishes_iff_of_parent isParent isFinal notRoot,
        Chart.isFinalChild_iff isParent isFinal, notRegion]
  · -- The parent may be the last region of the parallel, which then is finished as well.
    obtain ⟨done, isFinal_eq, completions⟩ :=
      completeParallel_spec (markDone chart world parent) parallel
    have finishes : ∀ state, chart.Finishes world.status.done node state ↔
        state = parent ∨ state = parallel ∧
          ∀ region ∈ (chart.node parallel).children, region = parent ∨ region ∈ world.status.done :=
      fun _ => Chart.finishes_iff_of_region isParent isFinal notRoot isRegion isUpper
    simp only [mem_done_markDone] at done completions
    rw [result]
    refine ⟨fun state => ?_, ?_, fun event => ?_⟩
    · rw [done, finishes, or_comm (a := state = parent), or_assoc]
    · rw [isFinal_eq]
      exact (or_iff_left notTop).symm
    · rw [completions, completions_markDone, List.mem_append, List.mem_singleton, or_assoc]
      refine or_congr_right ⟨?_, ?_⟩
      · rintro (rfl | ⟨rfl, all, absent⟩)
        · exact ⟨parent, rfl, (finishes parent).2 (.inl rfl), .inl ⟨isParent, isFinal⟩⟩
        · exact ⟨parallel, rfl, (finishes parallel).2 (.inr ⟨rfl, all⟩),
            .inr fun present => absent (.inr present)⟩
      · rintro ⟨state, rfl, completes, isNew⟩
        rw [Chart.isFinalChild_iff isParent isFinal] at isNew
        by_cases same : state = parent
        · exact .inl (by rw [same])
        · obtain ⟨rfl, all⟩ := ((finishes state).1 completes).resolve_left same
          exact .inr ⟨rfl, all, fun present => present.elim same (isNew.resolve_left same)⟩

theorem isFinish_enterFinal : IsFinish chart node world (enterFinal chart world node) := by
  by_cases top : (chart.parent node).getD rootId = rootId
  · exact isFinish_at_top world isFinal top
  · cases isParent : chart.parent node with
    | none => simp [isParent] at top
    | some parent =>
        rw [isParent] at top
        exact isFinish_below world isFinal isParent top

end EnterFinal

/-- The entry actions and the initial and default transitions leave the flags alone. -/
theorem exists_settled (chart : Chart) (events : List Event) (active : NodeSet)
    (resolution : Resolution) (world : World) (node : NodeId) :
    ∃ settled : World,
      settled.status = { world.status with done := world.status.done.erase node } ∧
      settled.completions = world.completions ++ [.ofCompletion (chart.idOf node ++ ".entry")] ∧
      enterState chart events active resolution world node =
        if (chart.node node).isFinal then enterFinal chart settled node else settled := by
  let restarted := world.modifyStatus
    (fun status => { status with done := status.done.erase node })
  have ran := Solitary.run restarted ⟨chart, node, events, active⟩ (chart.node node).onEntry
  obtain ⟨status, completions⟩ := ran.signal (.entered (chart.idOf node))
    (chart.idOf node ++ ".entry")
  have settles := fun (ids : List TransitionId) (world : World) => Solitary.foldl (fun world id =>
    .run world ⟨chart, node, events, active⟩ (chart.transition id).actions) ids world
  exact ⟨_, (settles _ _).status_eq.trans status, (settles _ _).completions_eq.trans completions,
    rfl⟩

theorem isEntry_enterState (events : List Event) (active : NodeSet) (resolution : Resolution)
    (world : World) (node : NodeId) :
    IsEntry chart node world (enterState chart events active resolution world node) := by
  obtain ⟨settled, status, completions, result⟩ :=
    exists_settled chart events active resolution world node
  have finishes : IsFinish chart node settled
      (enterState chart events active resolution world node) := by
    rw [result]
    split
    · next isFinal => exact isFinish_enterFinal settled isFinal
    · next notFinal =>
        refine isFinish_of_nothing ?_ rfl rfl (or_iff_left fun isTop => notFinal isTop.1).symm
        exact fun state ⟨parent, isFinalChild, _⟩ => notFinal isFinalChild.2
  obtain ⟨done, isFinal, told⟩ := finishes
  rw [status] at done isFinal told
  refine ⟨fun state => ?_, isFinal, fun event => ?_⟩
  · rw [done, NodeSet.mem_erase]
  · rw [told, completions, List.mem_append, List.mem_singleton, or_assoc]

/-! ## Microsteps -/

structure SameFlags (before after : World) : Prop where
  done_eq : after.status.done = before.status.done
  isFinal_eq : after.status.isFinal = before.status.isFinal
  completions_eq : after.completions = before.completions

theorem Hushed.sameFlags {before after : World} (hushed : Hushed before after) :
    SameFlags before after :=
  ⟨congrArg Status.done hushed.status_eq, congrArg Status.isFinal hushed.status_eq,
    hushed.completions_eq⟩

/-- What exits one after the other do to the flags, and which events tell of them. -/
structure AreExits (chart : Chart) (nodes : List NodeId) (before after : World) : Prop where
  mem_done : ∀ state, state ∈ after.status.done ↔
    state ∈ before.status.done ∧ ∀ node ∈ nodes, ¬ chart.Reopens node state
  isFinal_eq : after.status.isFinal = before.status.isFinal
  completions_eq : after.completions = before.completions ++
    nodes.map (fun node => .ofCompletion (chart.idOf node ++ ".exit"))

theorem areExits_foldl {exit : World → NodeId → World}
    (exits : ∀ world node, IsExit chart node world (exit world node)) (nodes : List NodeId)
    (world : World) : AreExits chart nodes world (nodes.foldl exit world) := by
  induction nodes generalizing world with
  | nil => exact ⟨fun state => by simp, rfl, by simp⟩
  | cons node rest ih =>
      have first := exits world node
      have others := ih (exit world node)
      refine ⟨fun state => ?_, others.isFinal_eq.trans first.isFinal_eq, ?_⟩
      · rw [List.foldl_cons, others.mem_done, first.mem_done, and_assoc, List.forall_mem_cons]
      · rw [List.foldl_cons, others.completions_eq, first.completions_eq, List.append_assoc]
        rfl

theorem AreExits.sameFlags {nodes : List NodeId} {first second third : World}
    (exits : AreExits chart nodes first second) (same : SameFlags second third) :
    AreExits chart nodes first third where
  mem_done := by
    rw [same.done_eq]
    exact exits.mem_done
  isFinal_eq := same.isFinal_eq.trans exits.isFinal_eq
  completions_eq := same.completions_eq.trans exits.completions_eq

inductive AreEntries (chart : Chart) : List NodeId → World → World → Prop
  | nil {before after : World} (same : SameFlags before after) : AreEntries chart [] before after
  | cons {node : NodeId} {rest : List NodeId} {first second third : World}
      (entry : IsEntry chart node first second) (others : AreEntries chart rest second third) :
      AreEntries chart (node :: rest) first third

theorem areEntries_foldl {enter : World → NodeId → World}
    (entries : ∀ world node, IsEntry chart node world (enter world node)) {nodes : List NodeId}
    {world after : World} (same : SameFlags (nodes.foldl enter world) after) :
    AreEntries chart nodes world after := by
  induction nodes generalizing world with
  | nil => exact .nil same
  | cons node rest ih => exact .cons (entries world node) (ih same)

/-- What a microstep does that takes transitions: it leads from one world to another through a
world in which the states that are exited have been left. -/
structure Proceeds (chart : Chart) (transitions : List TransitionId) (resolution : Resolution)
    (before left after : World) : Prop where
  resolves : chart.resolve before.status.history before.status.leaves transitions = .ok resolution
  carries : CarriesOut chart resolution before after
  exits : ∃ cleared, Clears before cleared ∧ AreExits chart resolution.exited cleared left
  entries : AreEntries chart resolution.entered left after

/-- A microstep exits states, takes transitions, enters states and starts services. -/
theorem exists_proceeds_of_microstep {world after : World} {program : Program}
    {initial : Option TransitionId} {events : List Event} {transitions : List TransitionId}
    (done : world.microstep program initial events = .ok (transitions, after)) :
    ∃ resolution left, Proceeds program.chart transitions resolution world left after := by
  obtain ⟨asked, chosen, resolution, clears, -, chooses, resolved, rfl⟩ :=
    exists_carryOut_of_microstep done
  have choosing := Solitary.choose asked program initial events
  rw [chooses] at choosing
  have ready : Clears world chosen :=
    ⟨clears.toQuiet.trans choosing.toQuiet, choosing.completions_eq.trans clears.completions_eq⟩
  rw [ready.status_eq] at resolved
  have starts := Hushed.startPending
    (chosen.carryOut program.chart events transitions resolution) program.chart program.registry
    events ((chosen.carryOut program.chart events transitions resolution).active program)
  have carries := carriesOut_carryOut chosen program.chart events transitions resolution
  refine ⟨resolution, _, resolved, .quiet ready.toQuiet carries starts.toQuiet,
    ⟨chosen, ready, AreExits.sameFlags (areExits_foldl
      (isExit_exitState events (program.chart.active chosen.status.leaves)) _ _)
      (Solitary.foldl (.takeTransition program.chart events
        (program.chart.active chosen.status.leaves)) transitions _).sameFlags⟩,
    areEntries_foldl (isEntry_enterState events (program.chart.active resolution.after)
      resolution) ?_⟩
  -- Only the leaves and the records are set in the end.
  exact ⟨starts.sameFlags.done_eq, starts.sameFlags.isFinal_eq, starts.sameFlags.completions_eq⟩

/-! ## Composite states -/

section Composite

variable {state : NodeId} (notParallel : (chart.node state).isParallel = false)
include notParallel

theorem AreExits.mem_done_iff {nodes : List NodeId} {before after : World}
    (exits : AreExits chart nodes before after) :
    state ∈ after.status.done ↔
      state ∈ before.status.done ∧ ∀ node ∈ nodes, ¬ chart.IsFinalChild node state := by
  rw [exits.mem_done]
  simp only [Chart.reopens_iff notParallel]

variable (tree : chart.IsTree) (notRoot : state ≠ rootId)
include tree notRoot

/-- A state is done after entries if a final child of it is entered, or if it was done and
is not entered itself. -/
theorem AreEntries.mem_done_iff {nodes : List NodeId} {before after : World}
    (outer_first : nodes.Pairwise (fun a b => ¬ chart.isDescendant a b = true))
    (entries : AreEntries chart nodes before after) :
    state ∈ after.status.done ↔ (∃ node ∈ nodes, chart.IsFinalChild node state) ∨
      state ∈ before.status.done ∧ ¬ state ∈ nodes := by
  induction entries with
  | nil same => simp [same.done_eq]
  | @cons node rest first second third entry others ih =>
      obtain ⟨notBelow, restFirst⟩ := List.pairwise_cons.1 outer_first
      have later : chart.IsFinalChild node state → ¬ state ∈ rest := fun isFinalChild member =>
        notBelow state member (tree.isDescendant_of_parent isFinalChild.1)
      rw [ih restFirst, entry.mem_done, Chart.finishes_iff notParallel notRoot]
      simp only [List.mem_cons, exists_eq_or_imp, not_or]
      constructor
      · rintro (inRest | ⟨⟨isDone, apart⟩ | isFinalChild, notRest⟩)
        · exact .inl (.inr inRest)
        · exact .inr ⟨isDone, apart, notRest⟩
        · exact .inl (.inl isFinalChild)
      · rintro ((isFinalChild | inRest) | ⟨isDone, apart, notRest⟩)
        · exact .inr ⟨.inr isFinalChild, later isFinalChild⟩
        · exact .inl inRest
        · exact .inr ⟨.inl ⟨isDone, apart⟩, notRest⟩

end Composite

theorem AreEntries.isFinal_iff {nodes : List NodeId} {before after : World}
    (entries : AreEntries chart nodes before after) :
    after.status.isFinal = true ↔
      before.status.isFinal = true ∨ ∃ node ∈ nodes, chart.IsTopFinal node := by
  induction entries with
  | nil same => simp [same.isFinal_eq]
  | cons entry others ih =>
      rw [ih, entry.isFinal_iff, or_assoc]
      simp only [List.mem_cons, exists_eq_or_imp]

end World

end Statechart
