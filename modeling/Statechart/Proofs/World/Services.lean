import Statechart.Proofs.Configuration.Order
import Statechart.Proofs.NodeSet
import Statechart.Proofs.World.Quiet

/-!
# The services of states

The service of a state is running or suppressed, or the state has none.  To cancel services
takes some states out of both, and to start one puts its state into one of them: it runs, or
it has failed and is suppressed.  So no service is ever running and suppressed at once.
-/

namespace Statechart

namespace Services

/-- The service of a state is running or suppressed. -/
def IsServed (services : Services) (node : NodeId) : Prop :=
  services.running.contains node = true ∨ node ∈ services.suppressed

/-- No service is running and suppressed at once. -/
def AreApart (services : Services) : Prop :=
  ∀ node, services.running.contains node = true → ¬ node ∈ services.suppressed

/-- Just those services are left that certain states have. -/
structure Retains (before after : Services) (Kept : NodeId → Prop) : Prop where
  contains_running : ∀ node, after.running.contains node = true ↔
    before.running.contains node = true ∧ Kept node
  mem_suppressed : ∀ node, node ∈ after.suppressed ↔ node ∈ before.suppressed ∧ Kept node

namespace Retains

variable {first second third : Services} {Kept More Other : NodeId → Prop}

theorem isServed_iff (retains : Retains first second Kept) {node : NodeId} :
    second.IsServed node ↔ first.IsServed node ∧ Kept node := by
  rw [IsServed, IsServed, retains.contains_running, retains.mem_suppressed, or_and_right]

theorem areApart (retains : Retains first second Kept) (apart : first.AreApart) :
    second.AreApart := by
  intro node isRunning isSuppressed
  rw [retains.contains_running] at isRunning
  rw [retains.mem_suppressed] at isSuppressed
  exact apart node isRunning.1 isSuppressed.1

theorem of_eq (running : second.running = first.running)
    (suppressed : second.suppressed = first.suppressed) :
    Retains first second (fun _ => True) := by
  constructor <;> simp [running, suppressed]

theorem trans (left : Retains first second Kept) (right : Retains second third More) :
    Retains first third (fun node => Kept node ∧ More node) := by
  constructor
  · intro node
    rw [right.contains_running, left.contains_running, and_assoc]
  · intro node
    rw [right.mem_suppressed, left.mem_suppressed, and_assoc]

theorem congr (retains : Retains first second Kept) (same : ∀ node, Kept node ↔ Other node) :
    Retains first second Other := by
  obtain rfl : Kept = Other := funext fun node => propext (same node)
  exact retains

end Retains

end Services

namespace World

theorem Attended.retains {before after : World} (attended : Attended before after) :
    before.services.Retains after.services (fun _ => True) :=
  .of_eq attended.running_eq attended.suppressed_eq

/-! ## Cancelling -/

/-- To cancel the service of a state is to take the state out, whether or not the service
fails to be cancelled. -/
theorem retains_cancelService (chart : Chart) (world : World) (node : NodeId) :
    world.services.Retains (cancelService chart world node).services (· ≠ node) := by
  unfold cancelService
  dsimp only
  split
  · next notRunning =>
      have stopped : ∀ other, world.services.running.contains other = true → other ≠ node := by
        rintro _ isRunning rfl
        rw [NodeMap.contains, Entries.contains, show Entries.find? _ _ = none from notRunning]
          at isRunning
        cases isRunning
      constructor
      · intro other
        exact ⟨fun isRunning => ⟨isRunning, stopped other isRunning⟩, And.left⟩
      · exact fun other => NodeSet.mem_erase
  · next running _ =>
      let services : Services :=
        { world.services with
          suppressed := world.services.suppressed.erase node
          running := world.services.running.erase node }
      have erased : world.services.Retains services (· ≠ node) :=
        ⟨fun other => NodeMap.contains_erase, fun other => NodeSet.mem_erase⟩
      have made := Attended.call { world with services } running.service
        ⟨running.number, chart.idOf node, .cancel⟩
      have asked := (erased.trans made.retains).congr fun other => and_iff_left trivial
      split
      · next next result =>
          rw [result] at asked
          exact asked
      · next fault next result =>
          rw [result] at asked
          exact asked

theorem retains_foldl {step : World → NodeId → World}
    (steps : ∀ (world : World) node,
      world.services.Retains (step world node).services (· ≠ node))
    (nodes : List NodeId) (world : World) :
    world.services.Retains (nodes.foldl step world).services (¬ · ∈ nodes) := by
  induction nodes generalizing world with
  | nil => exact (Services.Retains.of_eq rfl rfl).congr (by simp)
  | cons node rest ih =>
      exact ((steps world node).trans (ih (step world node))).congr (by simp)

theorem retains_cancelInactive (world : World) (chart : Chart) (active : NodeSet) :
    world.services.Retains (world.cancelInactive chart active).services (· ∈ active) := by
  have cancelled := retains_foldl (retains_cancelService chart)
    (world.services.running.keys.filter (fun node => !active.contains node)) world
  have stale : ∀ node, node ∈ world.services.running.keys.filter
      (fun node => !active.contains node) ↔
      world.services.running.contains node = true ∧ ¬ node ∈ active := by
    intro node
    rw [List.mem_filter, NodeMap.contains_iff, Bool.not_eq_true', NodeSet.contains_eq_false_iff]
  constructor
  · intro node
    have remains := cancelled.contains_running node
    rw [stale] at remains
    refine remains.trans ⟨?_, ?_⟩
    · rintro ⟨isRunning, notStale⟩
      exact ⟨isRunning, by_contra fun inactive => notStale ⟨isRunning, inactive⟩⟩
    · rintro ⟨isRunning, isActive⟩
      exact ⟨isRunning, fun isStale => isStale.2 isActive⟩
  · intro node
    have remains := cancelled.mem_suppressed node
    rw [stale] at remains
    refine NodeSet.mem_filter.trans ?_
    rw [remains, NodeSet.contains_iff, and_assoc]
    refine and_congr_right fun _ => and_iff_right_of_imp fun isActive isStale => ?_
    exact isStale.2 isActive

/-! ## Starting -/

theorem awaitsStart_iff {chart : Chart} {services : Services} {node : NodeId} :
    awaitsStart chart services node = true ↔
      (chart.node node).invocation.isSome = true ∧ ¬ services.IsServed node := by
  simp [awaitsStart, Services.IsServed, and_assoc]

/-- The service that is started for a state runs, or it has failed and is suppressed. -/
theorem startAt_cases (chart : Chart) (registry : Registry) (events : List Event)
    (active : NodeSet) (world : World) {node : NodeId}
    (invokes : (chart.node node).invocation.isSome = true) :
    ∃ asked : World, Attended world asked ∧
      ((∃ service, startAt chart registry events active world node =
          asked.keepService node service) ∨
        startAt chart registry events active world node = asked.suppress node) := by
  obtain ⟨invocation, isInvocation⟩ := Option.isSome_iff_exists.1 invokes
  have started := Attended.startService registry ⟨chart, node, events, active⟩ invocation world
  unfold startAt
  rw [isInvocation]
  dsimp only
  split
  · next service next result =>
      rw [result] at started
      exact ⟨next, started, .inl ⟨service, rfl⟩⟩
  · next fault next result =>
      rw [result] at started
      exact ⟨_, started.trans ((Solitary.report next _ _ _).trans (.emit _ rfl)).attended,
        .inr rfl⟩

/-- To start the service of a state that has none puts the state into one of both. -/
theorem isServed_startAt (chart : Chart) (registry : Registry) (events : List Event)
    (active : NodeSet) {world : World} {node : NodeId}
    (awaits : awaitsStart chart world.services node = true) :
    (world.services.AreApart →
        (startAt chart registry events active world node).services.AreApart) ∧
      ∀ other, (startAt chart registry events active world node).services.IsServed other ↔
        other = node ∨ world.services.IsServed other := by
  obtain ⟨invokes, unserved⟩ := awaitsStart_iff.1 awaits
  obtain ⟨notRunning, notSuppressed⟩ := not_or.1 unserved
  obtain ⟨asked, attended, ⟨service, result⟩ | result⟩ :=
    startAt_cases chart registry events active world invokes
  all_goals
    rw [result]
    rw [← attended.suppressed_eq] at notSuppressed
    rw [← attended.running_eq] at notRunning
    simp only [Services.AreApart, Services.IsServed, ← attended.running_eq,
      ← attended.suppressed_eq]
  · refine ⟨fun apart other isRunning isSuppressed => ?_, fun other => ?_⟩
    · rcases NodeMap.contains_insert.1 isRunning with rfl | earlier
      · exact notSuppressed isSuppressed
      · exact apart other earlier isSuppressed
    · rw [← or_assoc]
      exact or_congr_left NodeMap.contains_insert
  · refine ⟨fun apart other isRunning isSuppressed => ?_, fun other => ?_⟩
    · rcases NodeSet.mem_insert.1 isSuppressed with rfl | earlier
      · exact notRunning isRunning
      · exact apart other isRunning earlier
    · rw [or_left_comm]
      exact or_congr_right NodeSet.mem_insert

/-- Starting the services of some states that have none, one after the other. -/
theorem isServed_foldl_startAt (chart : Chart) (registry : Registry) (events : List Event)
    (active : NodeSet) {nodes : List NodeId} (distinct : nodes.Nodup) {world : World}
    (await : ∀ node ∈ nodes, awaitsStart chart world.services node = true) :
    (world.services.AreApart →
        (nodes.foldl (startAt chart registry events active) world).services.AreApart) ∧
      ∀ other, (nodes.foldl (startAt chart registry events active) world).services.IsServed
        other ↔ other ∈ nodes ∨ world.services.IsServed other := by
  induction nodes generalizing world with
  | nil => exact ⟨id, fun other => by simp⟩
  | cons node rest ih =>
      obtain ⟨notLater, restDistinct⟩ := List.nodup_cons.1 distinct
      obtain ⟨nextApart, served⟩ := isServed_startAt chart registry events active
        (await node List.mem_cons_self)
      -- The others still await their start, since only this state has been served.
      have still : ∀ other ∈ rest, awaitsStart chart
          (startAt chart registry events active world node).services other = true := by
        intro other later
        obtain ⟨invokes, unserved⟩ := awaitsStart_iff.1 (await other (List.mem_cons_of_mem _ later))
        rw [awaitsStart_iff, served, not_or]
        exact ⟨invokes, fun same => notLater (same ▸ later), unserved⟩
      obtain ⟨lastApart, others⟩ := ih restDistinct still
      refine ⟨fun apart => lastApart (nextApart apart), fun other => ?_⟩
      rw [List.foldl_cons, others, served, List.mem_cons, or_left_comm, or_assoc]

/-- After the services of the active states have been started, those active states are served
that were served before or that invoke a service. -/
theorem isServed_startPending (world : World) (chart : Chart) (registry : Registry)
    (events : List Event) (active : NodeSet) :
    (world.services.AreApart →
        (world.startPending chart registry events active).services.AreApart) ∧
      ∀ node, (world.startPending chart registry events active).services.IsServed node ↔
        (node ∈ active ∧ (chart.node node).invocation.isSome = true) ∨
          world.services.IsServed node := by
  let pending := chart.inDocumentOrder (active.toList.filter (awaitsStart chart world.services))
  have isPending : ∀ node, node ∈ pending ↔
      node ∈ active ∧ awaitsStart chart world.services node = true :=
    fun node => (Chart.mem_sortOrdered _).trans List.mem_filter
  have distinct : pending.Nodup :=
    Chart.nodup_sortOrdered _ (active.nodup_toList.filter _)
  obtain ⟨lastApart, served⟩ := isServed_foldl_startAt chart registry events active distinct
    (fun node member => ((isPending node).1 member).2)
  refine ⟨lastApart, fun node => (served node).trans ?_⟩
  rw [isPending, awaitsStart_iff]
  by_cases already : world.services.IsServed node <;> simp [already]

end World

end Statechart
