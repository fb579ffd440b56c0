import Statechart.Proofs.World.Quiet

/-!
# Blocks run flat

A block is run by recursion: a choice runs one of its blocks and returns early if that
one fails.  A flat run knows nothing of blocks within blocks.  It has one list of actions
still to be taken up, in which a choice gives way to the actions of the block it chooses,
and stops at the first expression that fails.  Both do the same.
-/

namespace Statechart

namespace World

/-! ## Flat runs -/

/-- Takes up one action.  Yields the actions that take its place, which only a choice has,
or the fault of its expression. -/
def takeUp (scope : Scope) (world : World) :
    Action → Except ExpressionFault (List Action) × World
  | .raise event => (.ok [], world.emit (.ofMachine (Text.trim event)))
  | .choose condition thenBlock elseBlock =>
    match world.evalCondition scope condition with
    | (.error fault, world) => (.error fault, world)
    | (.ok holds, world) => (.ok (if holds then thenBlock else elseBlock), world)
  | .log label expression =>
    match world.evalExpression scope expression with
    | (.error fault, world) => (.error fault, world)
    | (.ok value, world) =>
      (.ok [], world.observe (.logged scope.stateId label value.plainText))
  | action =>
    match world.execute scope action with
    | (.error fault, world) => (.error fault, world)
    | (.ok (), world) => (.ok [], world)

theorem sizeOf_append_lt {Element : Type} [SizeOf Element] {element : Element}
    {front : List Element} (smaller : sizeOf front < 1 + sizeOf element) (rest : List Element) :
    sizeOf (front ++ rest) < sizeOf (element :: rest) := by
  have size : sizeOf (front ++ rest) + 1 = sizeOf front + sizeOf rest := by
    clear smaller
    induction front with
    | nil =>
        simp
        omega
    | cons first others ih =>
        simp
        omega
  simp
  omega

/-- What takes the place of an action is part of it. -/
theorem sizeOf_lt_of_takeUp {scope : Scope} {world next : World} {action : Action}
    {block : List Action} (taken : takeUp scope world action = (.ok block, next)) :
    sizeOf block < 1 + sizeOf action := by
  have positive : 0 < sizeOf action := by cases action <;> exact Nat.pos_of_ne_zero (by simp)
  have smallest : block = [] → sizeOf block < 1 + sizeOf action := by
    rintro rfl
    exact Nat.lt_add_of_pos_right positive
  cases action with
  | raise event =>
      cases taken
      exact smallest rfl
  | choose condition thenBlock elseBlock =>
      simp only [takeUp] at taken
      split at taken <;> cases taken
      split <;> simp <;> omega
  | log _ _ | assign _ _ | script _ =>
      simp only [takeUp] at taken
      split at taken <;> cases taken
      exact smallest rfl

/-- How a flat run ends. -/
structure FlatRun where
  world : World
  /-- The actions that were taken up, the first one first. -/
  taken : List Action
  /-- The fault of the action that was taken up last, if it has failed. -/
  fault : Option ExpressionFault

/-- Takes up the first of the remaining actions over and over again, up to one that fails. -/
def flatRun (scope : Scope) (world : World) : List Action → FlatRun
  | [] => ⟨world, [], none⟩
  | action :: rest =>
    match outcome : takeUp scope world action with
    | (.error fault, next) => ⟨next.blockFailed scope fault, [action], some fault⟩
    | (.ok block, next) =>
      have : sizeOf (block ++ rest) < sizeOf (action :: rest) :=
        sizeOf_append_lt (sizeOf_lt_of_takeUp outcome) rest
      let later := flatRun scope next (block ++ rest)
      { later with taken := action :: later.taken }
termination_by remaining => sizeOf remaining

section Steps

variable {scope : Scope} {world next : World} {action : Action}

theorem flatRun_of_error {fault : ExpressionFault}
    (failed : takeUp scope world action = (.error fault, next)) (rest : List Action) :
    flatRun scope world (action :: rest) =
      ⟨next.blockFailed scope fault, [action], some fault⟩ := by
  rw [flatRun]
  split
  · next outcome =>
      rw [failed] at outcome
      cases outcome
      rfl
  · next outcome =>
      rw [failed] at outcome
      cases outcome

theorem flatRun_of_ok {block : List Action}
    (taken : takeUp scope world action = (.ok block, next)) (rest : List Action) :
    flatRun scope world (action :: rest) =
      { flatRun scope next (block ++ rest) with
        taken := action :: (flatRun scope next (block ++ rest)).taken } := by
  rw [flatRun]
  split
  · next outcome =>
      rw [taken] at outcome
      cases outcome
  · next outcome =>
      rw [taken] at outcome
      cases outcome
      rfl

end Steps

/-! ## The same as the recursion -/

theorem runBlock_append (scope : Scope) (world : World) (first second : List Action) :
    runBlock scope world (first ++ second) =
      match runBlock scope world first with
      | (next, true) => runBlock scope next second
      | (next, false) => (next, false) := by
  induction first generalizing world with
  | nil => rw [List.nil_append, runBlock.eq_1]
  | cons action rest ih =>
      rw [List.cons_append, runBlock, runBlock]
      split
      · next next ran => exact ih next
      · rfl

/-- Running an action is taking it up and running what takes its place. -/
theorem runAction_eq_takeUp (scope : Scope) (world : World) (action : Action) :
    runAction scope world action =
      match takeUp scope world action with
      | (.error fault, next) => (next.blockFailed scope fault, false)
      | (.ok block, next) => runBlock scope next block := by
  cases action with
  | raise event => simp only [runAction, takeUp, runBlock]
  | choose condition thenBlock elseBlock =>
      rw [runAction, takeUp]
      cases outcome : world.evalCondition scope condition with
      | mk result next =>
          cases result with
          | error fault => rfl
          | ok holds => cases holds <;> rfl
  | log label expression =>
      rw [runAction, takeUp]
      cases outcome : world.evalExpression scope expression with
      | mk result next =>
          cases result with
          | error fault => rfl
          | ok value => simp only [runBlock]
  | assign location expression =>
      rw [runAction_assign]
      simp only [takeUp]
      cases outcome : world.execute scope (.assign location expression) with
      | mk result next =>
          cases result with
          | error fault => rfl
          | ok done => simp only [runBlock]
  | script body =>
      rw [runAction_script]
      simp only [takeUp]
      cases outcome : world.execute scope (.script body) with
      | mk result next =>
          cases result with
          | error fault => rfl
          | ok done => simp only [runBlock]

theorem runBlock_eq_flatRun (scope : Scope) (world : World) (block : List Action) :
    runBlock scope world block =
      ((flatRun scope world block).world, (flatRun scope world block).fault.isNone) := by
  induction world, block using flatRun.induct scope with
  | case1 world =>
      rw [runBlock, flatRun]
      rfl
  | case2 world action rest fault next failed =>
      rw [runBlock, runAction_eq_takeUp, failed, flatRun_of_error failed]
      rfl
  | case3 world action rest block next taken _ ih =>
      rw [runBlock_append] at ih
      rw [runBlock, runAction_eq_takeUp, taken, flatRun_of_ok taken]
      exact ih

/-! ## What a failure does -/

end World

/-- The report that an observation tells of. -/
def Observation.report? : Observation → Option Report
  | .reported report => some report
  | _ => none

namespace World

/-- The reports made so far. -/
def reports (world : World) : List Report :=
  world.observations.toList.filterMap Observation.report?

theorem reports_observe (world : World) (observation : Observation) :
    (world.observe observation).reports = world.reports ++ observation.report?.toList := by
  rw [reports, observe, Array.toList_push, List.filterMap_append, reports]
  cases observation <;> rfl

theorem reports_evalCondition (world : World) (scope : Scope) (text : String) :
    (world.evalCondition scope text).2.reports = world.reports :=
  rfl

theorem reports_evalExpression (world : World) (scope : Scope) (text : String) :
    (world.evalExpression scope text).2.reports = world.reports :=
  rfl

theorem reports_execute (world : World) (scope : Scope) (action : Action) :
    (world.execute scope action).2.reports = world.reports :=
  rfl

/-- Taking up an action reports nothing by itself, also if it fails. -/
theorem reports_takeUp (scope : Scope) (world : World) (action : Action) :
    (takeUp scope world action).2.reports = world.reports := by
  cases action with
  | raise event => rfl
  | choose condition thenBlock elseBlock =>
      have silent := reports_evalCondition world scope condition
      rw [takeUp]
      split <;> next outcome => rwa [outcome] at silent
  | log label expression =>
      have silent := reports_evalExpression world scope expression
      rw [takeUp]
      split
      · next outcome => rwa [outcome] at silent
      · next outcome =>
          rw [outcome] at silent
          rw [reports_observe, silent]
          exact List.append_nil _
  | assign _ _ | script _ =>
      have silent := fun action => reports_execute world scope action
      simp only [takeUp]
      split <;> next outcome => rw [← silent, outcome]

theorem reports_blockFailed (world : World) (scope : Scope) (fault : ExpressionFault) :
    (world.blockFailed scope fault).reports =
      world.reports ++ [⟨.expressionError, fault.message, scope.stateId⟩] :=
  reports_observe world _

theorem reports_flatRun (scope : Scope) (world : World) (block : List Action) :
    (flatRun scope world block).world.reports = world.reports ++
      (flatRun scope world block).fault.toList.map
        (fun fault => ⟨.expressionError, fault.message, scope.stateId⟩) := by
  induction world, block using flatRun.induct scope with
  | case1 world => simp [flatRun]
  | case2 world action rest fault next failed =>
      have silent := reports_takeUp scope world action
      rw [failed] at silent
      rw [flatRun_of_error failed, reports_blockFailed, silent]
      rfl
  | case3 world action rest block next taken _ ih =>
      have silent := reports_takeUp scope world action
      rw [taken] at silent
      rw [flatRun_of_ok taken, ih, silent]

/-- Taking up some actions, none of which fails, leads from a world with actions that remain to
another one. -/
inductive LeadsTo (scope : Scope) :
    World → List Action → List Action → World → List Action → Prop
  | here (world : World) (remaining : List Action) :
      LeadsTo scope world remaining [] world remaining
  | onward {world next last : World} {action : Action} {rest block taken remaining : List Action}
      (first : takeUp scope world action = (.ok block, next))
      (others : LeadsTo scope next (block ++ rest) taken last remaining) :
      LeadsTo scope world (action :: rest) (action :: taken) last remaining

/-- A flat run that fails ends with the action that fails, and leaves those that remain. -/
theorem exists_of_fault {scope : Scope} {world : World} {block : List Action}
    {fault : ExpressionFault} (failed : (flatRun scope world block).fault = some fault) :
    ∃ earlier before failing rest after,
      LeadsTo scope world block earlier before (failing :: rest) ∧
      takeUp scope before failing = (.error fault, after) ∧
      (flatRun scope world block).taken = earlier ++ [failing] ∧
      (flatRun scope world block).world = after.blockFailed scope fault := by
  induction world, block using flatRun.induct scope with
  | case1 world =>
      rw [flatRun] at failed
      cases failed
  | case2 world action rest _ next isFault =>
      rw [flatRun_of_error isFault] at failed ⊢
      cases failed
      exact ⟨[], world, action, rest, next, .here world _, isFault, rfl, rfl⟩
  | case3 world action rest block next taken _ ih =>
      rw [flatRun_of_ok taken] at failed ⊢
      obtain ⟨earlier, before, failing, left, after, leads, isFault, isTaken, ends⟩ := ih failed
      exact ⟨action :: earlier, before, failing, left, after, .onward taken leads, isFault,
        congrArg (action :: ·) isTaken, ends⟩

/-- After a failure nothing else is taken up. -/
theorem flatRun_append_of_fault {scope : Scope} {world : World} {block : List Action}
    {fault : ExpressionFault} (failed : (flatRun scope world block).fault = some fault)
    (later : List Action) :
    flatRun scope world (block ++ later) = flatRun scope world block := by
  induction world, block using flatRun.induct scope with
  | case1 world =>
      rw [flatRun] at failed
      cases failed
  | case2 world action rest _ next isFault =>
      rw [List.cons_append, flatRun_of_error isFault, flatRun_of_error isFault]
  | case3 world action rest block next taken _ ih =>
      rw [flatRun_of_ok taken] at failed
      rw [List.cons_append, flatRun_of_ok taken, flatRun_of_ok taken, ← List.append_assoc,
        ih failed]

/-- Running a block does to the world what the flat run does, and it ends early exactly if an
expression fails there.  Then there is one report more and otherwise none; what tells of the
failure is the last event; and the action that has failed was the last one to be taken up, so
that nothing is done of what remains in the block and in the blocks around it. -/
theorem block_runs_flat (scope : Scope) (world : World) (block : List Action) :
    let flat := flatRun scope world block
    runBlock scope world block = (flat.world, flat.fault.isNone) ∧
    flat.world.reports = world.reports ++
      flat.fault.toList.map (fun fault => ⟨.expressionError, fault.message, scope.stateId⟩) ∧
    ∀ fault, flat.fault = some fault →
      (∃ earlier before failing rest after,
        LeadsTo scope world block earlier before (failing :: rest) ∧
        takeUp scope before failing = (.error fault, after) ∧
        flat.taken = earlier ++ [failing] ∧
        flat.world = after.blockFailed scope fault ∧
        flat.world.generated = after.generated.push (.ofMachine "error.execution")) ∧
      ∀ later, flatRun scope world (block ++ later) = flat := by
  refine ⟨runBlock_eq_flatRun scope world block, reports_flatRun scope world block,
    fun fault failed => ⟨?_, flatRun_append_of_fault failed⟩⟩
  obtain ⟨earlier, before, failing, rest, after, leads, isFault, isTaken, ends⟩ :=
    exists_of_fault failed
  refine ⟨earlier, before, failing, rest, after, leads, isFault, isTaken, ends, ?_⟩
  rw [ends]
  rfl

/-- A script fails within two choices, so that neither of the last two events is raised. -/
example :
    let ran := runBlock ⟨.empty none, rootId, [], ∅⟩ {}
      [.choose "true" [.raise "one", .choose "false" [] [.script "x", .raise "two"]] [],
        .raise "three"]
    ran.1.generated.toList.map Event.name = ["one", "error.execution"] ∧ ran.2 = false := by
  decide +kernel

end World

end Statechart
