import Mathlib.Data.List.Induction
import Mathlib.Logic.Function.Basic
import Statechart.Proofs.World.Calls

/-!
# Instances of services

An instance lives from the call that has started it to the call that cancels it, so the record
of calls tells which instances are alive.  Each instance is created for one node, its owner.
However services are started, informed and cancelled, the instances that run are just those
that are alive.
-/

namespace Statechart

namespace Services

variable (program : Program) (owner : Nat → NodeId)

/-- An instance has been asked to start, and the service of its owner has accepted. -/
def HasStarted (calls : List Service.Call) (number : Nat) : Prop :=
  ∃ earlier call, earlier ++ [call] <+: calls ∧ call.number = number ∧
    call.request.isStart = true ∧
    ∃ service, program.serviceAt? (owner number) = some service ∧
      (service.respond earlier call).fault = none

/-- An instance has been asked to cancel, whether or not it has failed to. -/
def IsCancelled (calls : List Service.Call) (number : Nat) : Prop :=
  ∃ call ∈ calls, call.number = number ∧ call.request.isCancel = true

structure IsAlive (calls : List Service.Call) (number : Nat) : Prop where
  hasStarted : HasStarted program owner calls number
  notCancelled : ¬ IsCancelled calls number

/-- A call that fits the calls before it: an instance is new when it is asked to start, and no
other one of its owner is alive; from then on only live instances are asked anything. -/
structure IsInOrder (earlier : List Service.Call) (call : Service.Call) : Prop where
  state_eq : call.state = program.chart.idOf (owner call.number)
  isNew : call.request.isStart = true → ∀ other ∈ earlier, other.number ≠ call.number
  isAlone : call.request.isStart = true →
    ∀ number, IsAlive program owner earlier number → owner number ≠ owner call.number
  isAlive : call.request.isStart = false → IsAlive program owner earlier call.number

def AreInOrder (calls : List Service.Call) : Prop :=
  ∀ earlier call, earlier ++ [call] <+: calls → IsInOrder program owner earlier call

/-- The running instances are known by numbers given so far, each at its owner. -/
structure AreOwned (services : Services) : Prop where
  below : ∀ call ∈ services.calls.toList, call.number < services.created
  ofRunning : ∀ node running, services.running.find? node = some running →
    owner running.number = node ∧ running.number < services.created

/-- The calls have been made in order, and the instances that run are just those that are
alive. -/
structure IsAccounted (services : Services) : Prop extends AreOwned owner services where
  inOrder : AreInOrder program owner services.calls.toList
  isAlive_iff : ∀ number, IsAlive program owner services.calls.toList number ↔
    ∃ running, services.running.find? (owner number) = some running ∧ running.number = number

variable {program} {owner} {calls : List Service.Call} {call : Service.Call}

/-! ## One more call -/

theorem hasStarted_concat {number : Nat} :
    HasStarted program owner (calls ++ [call]) number ↔
      HasStarted program owner calls number ∨
        call.number = number ∧ call.request.isStart = true ∧
          ∃ service, program.serviceAt? (owner number) = some service ∧
            (service.respond calls call).fault = none := by
  constructor
  · rintro ⟨earlier, other, within, starts⟩
    rcases List.prefix_concat_iff.1 within with same | before
    · obtain ⟨rfl, last⟩ := List.append_inj' same rfl
      cases last
      exact .inr starts
    · exact .inl ⟨earlier, other, before, starts⟩
  · rintro (⟨earlier, other, within, starts⟩ | starts)
    · exact ⟨earlier, other, within.trans (List.prefix_append _ _), starts⟩
    · exact ⟨calls, call, List.prefix_rfl, starts⟩

theorem isCancelled_concat {number : Nat} :
    IsCancelled (calls ++ [call]) number ↔
      IsCancelled calls number ∨ call.number = number ∧ call.request.isCancel = true := by
  simp only [IsCancelled, List.mem_append, List.mem_singleton, or_and_right, exists_or,
    exists_eq_left]

theorem areInOrder_concat :
    AreInOrder program owner (calls ++ [call]) ↔
      AreInOrder program owner calls ∧ IsInOrder program owner calls call := by
  constructor
  · intro inOrder
    exact ⟨fun earlier other within =>
      inOrder earlier other (within.trans (List.prefix_append _ _)),
      inOrder calls call List.prefix_rfl⟩
  · rintro ⟨inOrder, last⟩ earlier other within
    rcases List.prefix_concat_iff.1 within with same | before
    · obtain ⟨rfl, isLast⟩ := List.append_inj' same rfl
      cases isLast
      exact last
    · exact inOrder earlier other before

/-- Instances of which nothing is on record are not alive. -/
theorem IsAlive.exists_call {number : Nat} (alive : IsAlive program owner calls number) :
    ∃ call ∈ calls, call.number = number := by
  obtain ⟨earlier, call, within, isNumber, -⟩ := alive.hasStarted
  exact ⟨call, within.subset (List.mem_append_right _ List.mem_cons_self), isNumber⟩

/-- A call that neither starts nor cancels leaves the same instances alive. -/
theorem isAlive_concat_of_forward {number : Nat} (starts : call.request.isStart = false)
    (cancels : call.request.isCancel = false) :
    IsAlive program owner (calls ++ [call]) number ↔ IsAlive program owner calls number := by
  constructor
  · rintro ⟨hasStarted, notCancelled⟩
    rw [hasStarted_concat] at hasStarted
    rw [isCancelled_concat] at notCancelled
    refine ⟨hasStarted.resolve_right fun isStart => ?_, fun earlier => notCancelled (.inl earlier)⟩
    rw [starts] at isStart
    cases isStart.2.1
  · rintro ⟨hasStarted, notCancelled⟩
    refine ⟨hasStarted_concat.2 (.inl hasStarted), fun isCancelled => ?_⟩
    rcases isCancelled_concat.1 isCancelled with earlier | ⟨-, isCancel⟩
    · exact notCancelled earlier
    · rw [cancels] at isCancel
      cases isCancel

theorem isAlive_concat_of_cancel {number : Nat} (cancels : call.request.isCancel = true) :
    IsAlive program owner (calls ++ [call]) number ↔
      IsAlive program owner calls number ∧ number ≠ call.number := by
  have starts : ¬ call.request.isStart = true := by
    simp [Service.Request.isStart_of_isCancel cancels]
  constructor
  · rintro ⟨hasStarted, notCancelled⟩
    rw [isCancelled_concat, not_or] at notCancelled
    refine ⟨⟨(hasStarted_concat.1 hasStarted).resolve_right fun isStart => starts isStart.2.1,
      notCancelled.1⟩, ?_⟩
    rintro rfl
    exact notCancelled.2 ⟨rfl, cancels⟩
  · rintro ⟨⟨hasStarted, notCancelled⟩, different⟩
    refine ⟨hasStarted_concat.2 (.inl hasStarted), fun isCancelled => ?_⟩
    rcases isCancelled_concat.1 isCancelled with earlier | ⟨same, -⟩
    · exact notCancelled earlier
    · exact different same.symm

theorem isAlive_concat_of_start {number : Nat} (starts : call.request.isStart = true)
    (isNew : ∀ other ∈ calls, other.number ≠ call.number) :
    IsAlive program owner (calls ++ [call]) number ↔
      IsAlive program owner calls number ∨
        number = call.number ∧ ∃ service, program.serviceAt? (owner number) = some service ∧
          (service.respond calls call).fault = none := by
  have cancels : ¬ call.request.isCancel = true := by
    intro isCancel
    rw [Service.Request.isStart_of_isCancel isCancel] at starts
    cases starts
  constructor
  · rintro ⟨hasStarted, notCancelled⟩
    rw [isCancelled_concat, not_or] at notCancelled
    rcases hasStarted_concat.1 hasStarted with earlier | ⟨same, -, accepted⟩
    · exact .inl ⟨earlier, notCancelled.1⟩
    · exact .inr ⟨same.symm, accepted⟩
  · rintro (⟨hasStarted, notCancelled⟩ | ⟨rfl, accepted⟩)
    · refine ⟨hasStarted_concat.2 (.inl hasStarted), fun isCancelled => ?_⟩
      rcases isCancelled_concat.1 isCancelled with earlier | ⟨-, isCancel⟩
      · exact notCancelled earlier
      · exact cancels isCancel
    · refine ⟨hasStarted_concat.2 (.inr ⟨rfl, starts, accepted⟩), fun isCancelled => ?_⟩
      rcases isCancelled_concat.1 isCancelled with ⟨other, member, same, -⟩ | ⟨-, isCancel⟩
      · exact isNew other member same
      · exact cancels isCancel

/-! ## What order brings about -/

theorem AreInOrder.of_prefix {earlier : List Service.Call}
    (inOrder : AreInOrder program owner calls) (within : earlier <+: calls) :
    AreInOrder program owner earlier :=
  fun before other isBefore => inOrder before other (isBefore.trans within)

/-- No instance is cancelled twice. -/
theorem AreInOrder.countP_cancel_le (inOrder : AreInOrder program owner calls) (number : Nat) :
    calls.countP (fun call => call.number == number && call.request.isCancel) ≤ 1 := by
  induction calls using List.reverseRecOn with
  | nil => exact Nat.zero_le 1
  | append_singleton calls call ih =>
      obtain ⟨before, last⟩ := areInOrder_concat.1 inOrder
      rw [List.countP_append, List.countP_singleton]
      split
      · next cancels =>
          simp only [Bool.and_eq_true, beq_iff_eq] at cancels
          obtain ⟨rfl, isCancel⟩ := cancels
          have alive := last.isAlive (Service.Request.isStart_of_isCancel isCancel)
          have none : calls.countP
              (fun other => other.number == call.number && other.request.isCancel) = 0 := by
            rw [List.countP_eq_zero]
            intro other member isCancel
            simp only [Bool.and_eq_true, beq_iff_eq] at isCancel
            exact alive.notCancelled ⟨other, member, isCancel⟩
          rw [none]
      · exact ih before

/-- No two live instances have one owner. -/
theorem AreInOrder.eq_of_isAlive (inOrder : AreInOrder program owner calls) {first second : Nat}
    (firstAlive : IsAlive program owner calls first)
    (secondAlive : IsAlive program owner calls second) (same : owner first = owner second) :
    first = second := by
  induction calls using List.reverseRecOn with
  | nil =>
      obtain ⟨_, member, -⟩ := firstAlive.exists_call
      cases member
  | append_singleton calls call ih =>
      obtain ⟨before, last⟩ := areInOrder_concat.1 inOrder
      by_cases starts : call.request.isStart = true
      · rw [isAlive_concat_of_start starts (last.isNew starts)] at firstAlive secondAlive
        rcases firstAlive with firstBefore | ⟨rfl, -⟩
        · rcases secondAlive with secondBefore | ⟨rfl, -⟩
          · exact ih before firstBefore secondBefore
          · exact absurd same (last.isAlone starts first firstBefore)
        · rcases secondAlive with secondBefore | ⟨rfl, -⟩
          · exact absurd same.symm (last.isAlone starts second secondBefore)
          · rfl
      · by_cases cancels : call.request.isCancel = true
        · rw [isAlive_concat_of_cancel cancels] at firstAlive secondAlive
          exact ih before firstAlive.1 secondAlive.1
        · rw [isAlive_concat_of_forward (by simpa using starts) (by simpa using cancels)]
            at firstAlive secondAlive
          exact ih before firstAlive secondAlive

/-! ## Owners -/

section Owners

variable {services : Services} {node : NodeId} {running : NodeMap RunningService} {created : Nat}
  {May : NodeId → Service.Call → Prop} {first second : Services}

/-- A call is made for the owner of its instance. -/
def CallsOwner (owner : Nat → NodeId) (node : NodeId) (call : Service.Call) : Prop :=
  owner call.number = node

theorem AreOwned.congr {next : Nat → NodeId} (owned : AreOwned owner services)
    (agree : ∀ number < services.created, next number = owner number) :
    AreOwned next services := by
  refine ⟨owned.below, fun node running isRunning => ?_⟩
  obtain ⟨isOwner, isCreated⟩ := owned.ofRunning node running isRunning
  exact ⟨(agree _ isCreated).trans isOwner, isCreated⟩

/-- An instance that is created gets an owner; any other one has its owner already. -/
theorem AreOwned.exists_owner (owned : AreOwned owner services)
    (allows : services.Allows program node call running created) :
    ∃ next, (∀ number < services.created, next number = owner number) ∧
      CallsOwner next node call := by
  let updated := Function.update owner services.created node
  have agree : ∀ number < services.created, updated number = owner number :=
    fun number isCreated => Function.update_of_ne (Nat.ne_of_lt isCreated) node owner
  have isOwner : updated services.created = node := Function.update_self _ node owner
  cases allows with
  | started | refused => exact ⟨updated, agree, isOwner⟩
  | forwarded _ isRunning | cancelled isRunning =>
      exact ⟨owner, fun _ _ => rfl, (owned.ofRunning _ _ isRunning).1⟩

theorem AreOwned.called (owned : AreOwned owner services)
    (allows : services.Allows program node call running created)
    (owns : CallsOwner owner node call) :
    AreOwned owner { services with running, created, calls := services.calls.push call } := by
  have numbered : ∀ {created}, services.created ≤ created → call.number < created →
      ∀ other ∈ (services.calls.push call).toList, other.number < created := by
    intro created more isCreated other member
    rw [Array.toList_push, List.mem_append, List.mem_singleton] at member
    rcases member with earlier | rfl
    · exact Nat.lt_of_lt_of_le (owned.below other earlier) more
    · exact isCreated
  have stays : ∀ other present, services.running.find? other = some present →
      owner present.number = other ∧ present.number < services.created + 1 :=
    fun other present isRunning => (owned.ofRunning other present isRunning).imp_right
      Nat.lt_succ_of_lt
  cases allows with
  | started =>
      refine ⟨numbered (Nat.le_succ _) (Nat.lt_succ_self _), fun other present isRunning => ?_⟩
      rw [NodeMap.find?_insert] at isRunning
      split at isRunning
      · next same =>
          cases isRunning
          exact ⟨owns.trans same.symm, Nat.lt_succ_self _⟩
      · exact stays other present isRunning
  | refused => exact ⟨numbered (Nat.le_succ _) (Nat.lt_succ_self _), stays⟩
  | forwarded _ isRunning =>
      exact ⟨numbered (Nat.le_refl _) (owned.ofRunning _ _ isRunning).2, owned.ofRunning⟩
  | cancelled isRunning =>
      refine ⟨numbered (Nat.le_refl _) (owned.ofRunning _ _ isRunning).2,
        fun other present isPresent => ?_⟩
      rw [NodeMap.find?_erase] at isPresent
      split at isPresent
      · cases isPresent
      · exact owned.ofRunning other present isPresent

/-- Where nothing has been asked yet, nothing runs. -/
theorem isAccounted_of_none (noCalls : services.calls = #[]) (noneRuns : services.running = ∅) :
    IsAccounted program owner services := by
  refine ⟨⟨fun call isCall => ?_, fun node running isRunning => ?_⟩, fun earlier call within => ?_,
    fun number => ⟨fun alive => ?_, ?_⟩⟩
  · rw [noCalls] at isCall
    cases isCall
  · rw [noneRuns] at isRunning
    cases isRunning
  · rw [noCalls] at within
    cases List.append_eq_nil_iff.1 (List.prefix_nil.1 within) with
    | intro _ last => cases last
  · obtain ⟨call, isCall, -⟩ := alive.exists_call
    rw [noCalls] at isCall
    cases isCall
  · rintro ⟨running, isRunning, -⟩
    rw [noneRuns] at isRunning
    cases isRunning

/-- Instances can be given owners once and for all. -/
theorem Steps.exists_owner (steps : Steps program May first second) (noCalls : first.calls = #[])
    (noneRuns : first.running = ∅) :
    ∃ owner, Steps program (fun node call => May node call ∧ CallsOwner owner node call)
        first second ∧ AreOwned owner second := by
  induction steps with
  | refl =>
      have accounted : IsAccounted program (fun _ => rootId) first :=
        isAccounted_of_none noCalls noneRuns
      exact ⟨_, .refl _, accounted.toAreOwned⟩
  | tail steps step ih =>
      obtain ⟨owner, owning, owned⟩ := ih
      cases step with
      | suppressed suppressed =>
          exact ⟨owner, owning.tail (.suppressed _ suppressed), owned.below, owned.ofRunning⟩
      | called allows may =>
          obtain ⟨next, agree, owns⟩ := owned.exists_owner allows
          -- The calls made so far are known by numbers whose owner has not changed.
          have still := owning.within.mono (fun node call known =>
            (⟨known.1.1, (agree _ (owned.below call (owning.calls_eq ▸
              List.mem_append_right _ known.2))).trans known.1.2⟩ :
              May node call ∧ CallsOwner next node call))
          exact ⟨next, still.tail (.called allows ⟨may, owns⟩),
            (owned.congr agree).called allows owns⟩

/-! ## What runs is alive -/

/-- A call that a service of the program allows for its owner comes in order. -/
theorem IsAccounted.isInOrder (accounted : IsAccounted program owner services)
    (allows : services.Allows program node call running created)
    (owns : CallsOwner owner node call) :
    IsInOrder program owner services.calls.toList call := by
  have isNew : ∀ other ∈ services.calls.toList, other.number ≠ services.created :=
    fun other member => Nat.ne_of_lt (accounted.below other member)
  have isAlone : World.awaitsStart program.chart services node = true →
      owner services.created = node → ∀ number,
      IsAlive program owner services.calls.toList number →
        owner number ≠ owner services.created := by
    intro awaits isOwner number alive same
    obtain ⟨running, isRunning, -⟩ := (accounted.isAlive_iff number).1 alive
    rw [same, isOwner] at isRunning
    exact (World.awaitsStart_iff.1 awaits).2 (.inl (NodeMap.contains_of_find? isRunning))
  have isAlive : ∀ {running}, services.running.find? node = some running →
      owner running.number = node →
      IsAlive program owner services.calls.toList running.number := by
    rintro running isRunning rfl
    exact (accounted.isAlive_iff _).2 ⟨running, isRunning, rfl⟩
  have state_eq : call.state = program.chart.idOf (owner call.number) := by
    rw [allows.state_eq, show owner call.number = node from owns]
  cases allows with
  | started awaits | refused awaits =>
      exact ⟨state_eq, fun _ => isNew, fun _ => isAlone awaits owns,
        fun notStart => by cases notStart⟩
  | forwarded _ isRunning | cancelled isRunning =>
      exact ⟨state_eq, fun isStart => (by cases isStart), fun isStart => (by cases isStart),
        fun _ => isAlive isRunning owns⟩

/-- After a call the instances that run are again those that are alive. -/
theorem IsAccounted.isAlive_called_iff (accounted : IsAccounted program owner services)
    (allows : services.Allows program node call running created)
    (owns : CallsOwner owner node call) (number : Nat) :
    IsAlive program owner (services.calls.toList ++ [call]) number ↔
      ∃ present, running.find? (owner number) = some present ∧ present.number = number := by
  have inOrder := accounted.isInOrder allows owns
  have before := accounted.isAlive_iff number
  cases allows with
  | @started service _ _ _ isService accepts =>
      have isOwner : owner services.created = node := owns
      rw [isAlive_concat_of_start rfl (inOrder.isNew rfl), NodeMap.find?_insert]
      by_cases same : owner number = node
      · -- The owner has no other live instance, so only the new one can be meant.
        have notBefore : ¬ IsAlive program owner services.calls.toList number :=
          fun alive => inOrder.isAlone rfl number alive (same.trans isOwner.symm)
        rw [if_pos same, or_iff_right notBefore, same]
        constructor
        · rintro ⟨rfl, -⟩
          exact ⟨_, rfl, rfl⟩
        · rintro ⟨_, isPresent, rfl⟩
          cases isPresent
          exact ⟨rfl, service, isService, accepts⟩
      · rw [if_neg same, ← before]
        refine or_iff_left ?_
        rintro ⟨rfl, -⟩
        exact same isOwner
  | @refused service _ _ fault _ isService refuses =>
      rw [isAlive_concat_of_start rfl (inOrder.isNew rfl), ← before]
      refine or_iff_left ?_
      rintro ⟨rfl, other, isOther, accepts⟩
      rw [show owner _ = node from owns, isService] at isOther
      cases isOther
      rw [refuses] at accepts
      cases accepts
  | forwarded => rw [isAlive_concat_of_forward rfl rfl, before]
  | @cancelled cancelled isRunning =>
      have isOwner : owner cancelled.number = node := owns
      rw [isAlive_concat_of_cancel rfl, before, NodeMap.find?_erase]
      by_cases same : owner number = node
      · rw [if_pos same, same, isRunning]
        constructor
        · rintro ⟨⟨_, isPresent, rfl⟩, different⟩
          cases isPresent
          exact absurd rfl different
        · rintro ⟨_, isPresent, -⟩
          cases isPresent
      · rw [if_neg same]
        refine and_iff_left_of_imp fun _ => ?_
        rintro rfl
        exact same isOwner

theorem IsAccounted.called (accounted : IsAccounted program owner services)
    (allows : services.Allows program node call running created)
    (owns : CallsOwner owner node call) :
    IsAccounted program owner
      { services with running, created, calls := services.calls.push call } := by
  refine ⟨accounted.toAreOwned.called allows owns, ?_, fun number => ?_⟩
  · rw [Array.toList_push, areInOrder_concat]
    exact ⟨accounted.inOrder, accounted.isInOrder allows owns⟩
  · rw [Array.toList_push]
    exact accounted.isAlive_called_iff allows owns number

/-- However services are started, informed and cancelled, the calls are in order, and what runs
is alive. -/
theorem Steps.isAccounted (steps : Steps program (CallsOwner owner) first second)
    (accounted : IsAccounted program owner first) : IsAccounted program owner second := by
  induction steps with
  | refl => exact accounted
  | tail _ step ih =>
      cases step with
      | called allows owns => exact ih.called allows owns
      | suppressed suppressed => exact ⟨⟨ih.below, ih.ofRunning⟩, ih.inOrder, ih.isAlive_iff⟩

end Owners

end Services

end Statechart
