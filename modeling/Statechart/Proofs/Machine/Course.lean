import Statechart.Proofs.Microstep.Execution

/-!
# The course of microsteps

A macrostep begins microsteps one after the other, and the last one may be given up.  Their
course tells how they follow each other and what comes of them.  What each of them keeps is kept
by all of them together, by induction on the course.
-/

namespace Statechart

namespace World

/-- The world in which an attempt ends, also if it is given up. -/
def worldAfter {Result : Type} : Except Failure (Result × World) → World
  | .ok (_, world) => world
  | .error failure => failure.world

end World

/-- A microstep that was begun. -/
structure Attempt where
  world : World
  initial : Option TransitionId
  events : List Event

/-- The report of microsteps together with one more that has led to a world. -/
def Macrostep.extend (done : Macrostep) (next : World) : Macrostep :=
  ⟨done.microsteps + 1, done.events ++ next.generated.toList⟩

namespace Attempt

def outcome (program : Program) (attempt : Attempt) :
    Except Failure (List TransitionId × World) :=
  attempt.world.microstep program attempt.initial attempt.events

/-- The events that the microstep generates, if it is not given up. -/
def generated (program : Program) (attempt : Attempt) : List Event :=
  match attempt.outcome program with
  | .ok (_, after) => after.generated.toList
  | .error _ => []

/-- The microstep that is begun after one that has led to a world, once observers are told of
that. -/
def following (next : World) (transitions : List TransitionId) (done : Macrostep) : Attempt where
  world := next.observe
    (.microstep (done.microsteps + 1) transitions.length next.generated.toList.length)
  initial := none
  events := next.generated.toList

theorem solitary_following (next : World) (transitions : List TransitionId) (done : Macrostep) :
    World.Solitary next (following next transitions done).world :=
  .observe next rfl

/-- The microsteps that are begun from one on, the one that is given up included. -/
def series (program : Program) : Nat → Attempt → Macrostep → List Attempt
  | 0, _, _ => []
  | remaining + 1, attempt, done =>
    if attempt.world.status.isFinal then
      []
    else
      attempt ::
        match attempt.outcome program with
        | .error _ => []
        | .ok (transitions, next) =>
          if transitions.isEmpty && next.generated.toList.isEmpty then []
          else series program remaining (following next transitions done) (done.extend next)

section Outcome

variable {program : Program} {attempt : Attempt} {transitions : List TransitionId} {next : World}

theorem isOk_of_outcome_eq (outcome : attempt.outcome program = .ok (transitions, next)) :
    (attempt.outcome program).isOk = true := by
  rw [outcome]
  rfl

theorem generated_of_outcome_eq (outcome : attempt.outcome program = .ok (transitions, next)) :
    attempt.generated program = next.generated.toList := by
  rw [generated, outcome]

end Outcome

/-- The course of microsteps, at most as many as remain, after those that a report tells of: which
are begun from one on, and what comes of them.  Each that comes to an end is followed by one for
the events that it has generated, until one finds nothing to do or is given up, a top-level final
state has been entered, or none remains. -/
inductive Course (program : Program) :
    Nat → Attempt → Macrostep → List Attempt → Except Failure (Macrostep × World) → Prop
  | final {remaining : Nat} {attempt : Attempt} {done : Macrostep}
      (isFinal : attempt.world.status.isFinal = true) :
      Course program remaining attempt done [] (.ok (done, attempt.world))
  | limited {attempt : Attempt} {done : Macrostep} (message : String)
      (notFinal : attempt.world.status.isFinal = false) :
      Course program 0 attempt done []
        (.ok (done, attempt.world.report .microstepLimit message (program.chart.idOf rootId)))
  | givenUp {remaining : Nat} {attempt : Attempt} {done : Macrostep} {failure : Failure}
      (notFinal : attempt.world.status.isFinal = false)
      (outcome : attempt.outcome program = .error failure) :
      Course program (remaining + 1) attempt done [attempt] (.error failure)
  | last {remaining : Nat} {attempt : Attempt} {done : Macrostep}
      {transitions : List TransitionId} {next : World}
      (notFinal : attempt.world.status.isFinal = false)
      (outcome : attempt.outcome program = .ok (transitions, next))
      (idle : (transitions.isEmpty && next.generated.toList.isEmpty) = true) :
      Course program (remaining + 1) attempt done [attempt]
        (.ok (done.extend next, (following next transitions done).world))
  | more {remaining : Nat} {attempt : Attempt} {done : Macrostep}
      {transitions : List TransitionId} {next : World} {others : List Attempt}
      {result : Except Failure (Macrostep × World)}
      (notFinal : attempt.world.status.isFinal = false)
      (outcome : attempt.outcome program = .ok (transitions, next))
      (goesOn : (transitions.isEmpty && next.generated.toList.isEmpty) = false)
      (course : Course program remaining (following next transitions done) (done.extend next)
        others result) :
      Course program (remaining + 1) attempt done (attempt :: others) result

/-- The microsteps of a world take their course. -/
theorem course_microsteps (program : Program) (limit : Nat) (attempt : Attempt)
    (done : Macrostep) :
    Course program limit attempt done (attempt.series program limit done)
      (World.microsteps program limit attempt.world attempt.initial attempt.events done) := by
  induction limit generalizing attempt done with
  | zero =>
      unfold World.microsteps
      split
      · next isFinal => exact .final isFinal
      · next notFinal => exact .limited _ (Bool.eq_false_iff.2 notFinal)
  | succ remaining ih =>
      have same : attempt.world.microstep program attempt.initial attempt.events =
          attempt.outcome program := rfl
      unfold World.microsteps series
      rw [same]
      split
      · next isFinal => exact .final isFinal
      · next notFinal =>
          replace notFinal := Bool.eq_false_iff.2 notFinal
          dsimp only
          cases outcome : attempt.outcome program with
          | error failure => exact .givenUp notFinal outcome
          | ok reached =>
              dsimp only
              split
              · next idle => exact .last notFinal outcome idle
              · next goesOn =>
                  exact .more notFinal outcome (Bool.eq_false_iff.2 goesOn) (ih _ _)

theorem course_of_microsteps_eq {program : Program} {limit : Nat} {world : World}
    {initial : Option TransitionId} {events : List Event} {done : Macrostep}
    {result : Except Failure (Macrostep × World)}
    (ran : World.microsteps program limit world initial events done = result) :
    let first : Attempt := ⟨world, initial, events⟩
    Course program limit first done (first.series program limit done) result :=
  ran ▸ course_microsteps program limit ⟨world, initial, events⟩ done

namespace Course

variable {program : Program} {limit : Nat} {first : Attempt} {done : Macrostep}
  {attempts : List Attempt} {result : Except Failure (Macrostep × World)}

/-- No microstep is begun where a top-level final state has been entered, and only the first one
may take the initial transition. -/
theorem of_mem (course : Course program limit first done attempts result) :
    ∀ attempt ∈ attempts, attempt.world.status.isFinal = false ∧
      (attempt = first ∨ attempt.initial = none) := by
  induction course with
  | final | limited => exact fun _ member => absurd member List.not_mem_nil
  | givenUp notFinal | last notFinal =>
      intro attempt member
      rw [List.mem_singleton.1 member]
      exact ⟨notFinal, .inl rfl⟩
  | more notFinal _ _ _ ih =>
      refine List.forall_mem_cons.2 ⟨⟨notFinal, .inl rfl⟩, fun attempt later => ?_⟩
      obtain ⟨alsoNotFinal, isFollowing | isNone⟩ := ih attempt later
      · exact ⟨alsoNotFinal, .inr (isFollowing ▸ rfl)⟩
      · exact ⟨alsoNotFinal, .inr isNone⟩

/-- Each microstep processes what the one before it has generated, also if the last one is given
up. -/
theorem attempts_process_generated (course : Course program limit first done attempts result) :
    attempts.map Attempt.events <+: first.events :: attempts.map (Attempt.generated program) := by
  induction course with
  | final | limited => exact List.nil_prefix
  | givenUp | last => exact (List.prefix_cons_inj _).2 List.nil_prefix
  | more _ outcome _ _ ih =>
      refine (List.prefix_cons_inj _).2 ?_
      rw [List.map_cons, generated_of_outcome_eq outcome]
      exact ih

/-- Microsteps fail where one is given up, the last one. -/
theorem exists_of_error {failure : Failure}
    (course : Course program limit first done attempts (.error failure)) :
    1 ≤ limit ∧ ∃ attempt, attempts.getLast? = some attempt ∧
      attempt.outcome program = .error failure := by
  generalize failed : (Except.error failure : Except Failure (Macrostep × World)) = result at course
  induction course with
  | final | limited | last => cases failed
  | @givenUp remaining attempt _ _ _ outcome =>
      cases failed
      exact ⟨Nat.succ_pos remaining, attempt, rfl, outcome⟩
  | @more remaining _ _ _ _ _ _ _ _ _ _ ih =>
      obtain ⟨-, attempt, isLast, outcome⟩ := ih failed
      exact ⟨Nat.succ_pos remaining, attempt, by rw [List.getLast?_cons, isLast]; rfl, outcome⟩

/-- Microsteps that come to an end are told of in the report, after those that it told of already,
and each one processes what the one before it has generated. -/
theorem reports {report : Macrostep} {after : World}
    (course : Course program limit first done attempts (.ok (report, after))) :
    (∀ attempt ∈ attempts, (attempt.outcome program).isOk = true) ∧
      report.microsteps = done.microsteps + attempts.length ∧
      report.events.toList = done.events.toList ++ attempts.flatMap (Attempt.generated program) ∧
      ∃ left, attempts.map Attempt.events ++ [left] =
        first.events :: attempts.map (Attempt.generated program) := by
  generalize succeeded : Except.ok (report, after) = result at course
  induction course with
  | @final _ attempt | @limited attempt =>
      cases succeeded
      exact ⟨fun _ member => absurd member List.not_mem_nil, rfl, (List.append_nil _).symm,
        attempt.events, rfl⟩
  | givenUp => cases succeeded
  | @last _ attempt _ _ next _ outcome =>
      cases succeeded
      have generated := generated_of_outcome_eq outcome
      refine ⟨?_, rfl, ?_, next.generated.toList, ?_⟩
      · simpa using isOk_of_outcome_eq outcome
      · simp [Macrostep.extend, generated]
      · simp [generated]
  | @more _ attempt done _ next others _ _ outcome _ _ ih =>
      have generated := generated_of_outcome_eq outcome
      obtain ⟨areOk, count, told, left, chained⟩ := ih succeeded
      refine ⟨List.forall_mem_cons.2 ⟨isOk_of_outcome_eq outcome, areOk⟩, ?_, ?_, left, ?_⟩
      · rw [count, List.length_cons, Macrostep.extend]
        exact Nat.add_right_comm _ _ _
      · rw [told, List.flatMap_cons, generated, Macrostep.extend, Array.toList_appendList,
          List.append_assoc]
      · rw [List.map_cons, List.cons_append, chained, List.map_cons, generated]
        rfl

/-- How each microstep leads from its world to another, and telling observers too, microsteps
lead from the first world to each of those where they begin and to the one where they end. -/
theorem related (Related : World → World → Prop) (refl : ∀ world, Related world world)
    (observe : ∀ world observation, observation.tellsPresence = false →
      Related world (world.observe observation))
    (trans : ∀ first second third, Related first second → Related second third →
      Related first third)
    (course : Course program limit first done attempts result)
    (steps : ∀ attempt ∈ attempts,
      Related attempt.world (World.worldAfter (attempt.outcome program))) :
    (∀ attempt ∈ attempts, Related first.world attempt.world) ∧
      Related first.world (World.worldAfter result) := by
  have alone : ∀ attempt : Attempt, ∀ other ∈ [attempt], Related attempt.world other.world :=
    fun attempt other member => List.mem_singleton.1 member ▸ refl attempt.world
  induction course with
  | final => exact ⟨fun _ member => absurd member List.not_mem_nil, refl _⟩
  | limited => exact ⟨fun _ member => absurd member List.not_mem_nil, observe _ _ rfl⟩
  | @givenUp _ attempt _ _ _ outcome =>
      have leads := steps attempt List.mem_cons_self
      rw [outcome] at leads
      exact ⟨alone attempt, leads⟩
  | @last _ attempt _ _ next _ outcome =>
      have leads := steps attempt List.mem_cons_self
      rw [outcome] at leads
      exact ⟨alone attempt, trans _ _ _ leads (observe next _ rfl)⟩
  | @more _ attempt done transitions next others _ _ outcome _ _ ih =>
      have leads := steps attempt List.mem_cons_self
      rw [outcome] at leads
      have tells : Related attempt.world (following next transitions done).world :=
        trans _ _ _ leads (observe next _ rfl)
      obtain ⟨begin, finish⟩ := ih fun other later => steps other (List.mem_cons_of_mem _ later)
      have after : ∀ other ∈ others, Related attempt.world other.world :=
        fun other later => trans _ _ _ tells (begin other later)
      exact ⟨List.forall_mem_cons.2 ⟨refl _, after⟩, trans _ _ _ tells finish⟩

/-- Where a top-level final state has been entered or none remains, no microstep is begun. -/
theorem eq_nil_of_idle (course : Course program limit first done attempts result)
    (idle : first.world.status.isFinal = true ∨ limit = 0) : attempts = [] := by
  cases course with
  | final | limited => rfl
  | givenUp notFinal | last notFinal | more notFinal =>
      rcases idle with isFinal | noneRemains
      · cases notFinal.symm.trans isFinal
      · cases noneRemains

/-- What solitary steps keep and microsteps without an initial transition keep holds
in the end, if it holds after the first microstep or there is none. -/
theorem keeps {report : Macrostep} {after : World}
    (course : Course program limit first done attempts (.ok (report, after)))
    {Invariant : World → Prop}
    (solitary : ∀ before after, World.Solitary before after → Invariant before → Invariant after)
    (step : ∀ (before after : World) events transitions, Invariant before →
      before.microstep program none events = .ok (transitions, after) → Invariant after)
    (begin : ∀ transitions next,
      first.outcome program = .ok (transitions, next) → Invariant next)
    (idle : first.world.status.isFinal = true ∨ limit = 0 → Invariant first.world) :
    Invariant after := by
  generalize succeeded : Except.ok (report, after) = result at course
  -- Once a microstep has been taken, the invariant holds and there is no initial transition.
  induction course with
  | final isFinal =>
      cases succeeded
      exact idle (.inl isFinal)
  | limited =>
      cases succeeded
      exact solitary _ _ (.report _ _ _ _) (idle (.inr rfl))
  | givenUp => cases succeeded
  | last _ outcome =>
      cases succeeded
      exact solitary _ _ (solitary_following _ _ _) (begin _ _ outcome)
  | @more _ _ done transitions next _ _ _ outcome _ _ ih =>
      have holds := solitary _ _ (solitary_following next transitions done) (begin _ _ outcome)
      exact ih (fun transitions after => step _ after _ transitions holds) (fun _ => holds)
        succeeded

end Course

end Attempt

namespace World

/-- What solitary steps and all microsteps keep, those that are given up included, holds
wherever microsteps end. -/
theorem worldAfter_microsteps (Invariant : World → Prop) {program : Program}
    (solitary : ∀ before after, Solitary before after → Invariant before → Invariant after)
    (step : ∀ (before : World) initial events, Invariant before →
      Invariant (worldAfter (before.microstep program initial events)))
    (remaining : Nat) {world : World} (holds : Invariant world) (initial : Option TransitionId)
    (events : List Event) (done : Macrostep) :
    Invariant (worldAfter (microsteps program remaining world initial events done)) := by
  have course := Attempt.course_microsteps program remaining ⟨world, initial, events⟩ done
  refine (course.related (fun before after => Invariant before → Invariant after) (fun _ => id)
    (fun world _ silent => solitary _ _ (.observe world silent))
    (fun _ _ _ left right holds => right (left holds)) fun attempt _ => ?_).2 holds
  exact step attempt.world attempt.initial attempt.events

end World

end Statechart
