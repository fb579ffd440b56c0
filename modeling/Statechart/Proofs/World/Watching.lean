import Mathlib.Data.Finset.Erase
import Mathlib.Data.Finset.Insert
import Statechart.Proofs.Chart.Executable
import Statechart.Proofs.World.Quiet

/-!
# Watching a machine

An observer who is told of entries and exits knows which states are active.  What
the observer is told is timely if states are entered below states that are active
already, and exited when nothing below them is active any more.
-/

namespace Statechart

/-- The states that an observer knows of after an observation. -/
def hold (held : Finset String) : Observation → Finset String
  | .entered id => insert id held
  | .exited id => held.erase id
  | _ => held

theorem hold_of_silent {observation : Observation} (silent : observation.tellsPresence = false)
    (held : Finset String) : hold held observation = held := by
  cases observation with
  | entered _ | exited _ => cases silent
  | _ => rfl

/-- Observations that tell of neither entries nor exits do not matter. -/
theorem foldl_hold_filter (observations : List Observation) (held : Finset String) :
    (observations.filter Observation.tellsPresence).foldl hold held =
      observations.foldl hold held := by
  induction observations generalizing held with
  | nil => rfl
  | cons observation rest ih =>
      cases tells : observation.tellsPresence with
      | true => rw [List.filter_cons_of_pos tells, List.foldl_cons, List.foldl_cons, ih]
      | false =>
          rw [List.filter_cons_of_neg (by simp [tells]), List.foldl_cons,
            hold_of_silent tells, ih]

namespace Chart

variable {chart : Chart}

/-- An entry is timely if the state is not held and its parent is, unless the state is
top-level.  An exit is timely if the state is held and nothing below it. -/
def IsTimely (chart : Chart) (held : Finset String) : Observation → Prop
  | .entered id => ¬ id ∈ held ∧ ∃ node parent, chart.lookup id = some node ∧
      chart.parent node = some parent ∧ (parent = rootId ∨ chart.idOf parent ∈ held)
  | .exited id => id ∈ held ∧ ∃ node, chart.lookup id = some node ∧
      ∀ lower, chart.isDescendant lower node = true → ¬ chart.idOf lower ∈ held
  | _ => True

/-- Every observation is timely for one who holds what the ones before have told. -/
def AreTimely (chart : Chart) (held : Finset String) : List Observation → Prop
  | [] => True
  | observation :: rest =>
    chart.IsTimely held observation ∧ chart.AreTimely (hold held observation) rest

theorem areTimely_append {held : Finset String} {first second : List Observation} :
    chart.AreTimely held (first ++ second) ↔
      chart.AreTimely held first ∧ chart.AreTimely (first.foldl hold held) second := by
  induction first generalizing held with
  | nil => simp [AreTimely]
  | cons observation rest ih =>
      rw [List.cons_append, AreTimely, AreTimely, ih, List.foldl_cons, and_assoc]

theorem isTimely_of_silent {observation : Observation}
    (silent : observation.tellsPresence = false) (held : Finset String) :
    chart.IsTimely held observation := by
  cases observation with
  | entered _ | exited _ => cases silent
  | _ => trivial

theorem areTimely_filter {observations : List Observation} {held : Finset String} :
    chart.AreTimely held (observations.filter Observation.tellsPresence) ↔
      chart.AreTimely held observations := by
  induction observations generalizing held with
  | nil => rfl
  | cons observation rest ih =>
      cases tells : observation.tellsPresence with
      | true => rw [List.filter_cons_of_pos tells, AreTimely, AreTimely, ih]
      | false =>
          rw [List.filter_cons_of_neg (by simp [tells]), AreTimely, hold_of_silent tells, ih]
          exact (and_iff_right (isTimely_of_silent tells held)).symm

/-! ## Exits and entries in order -/

/-- The observer holds just the ids of certain nodes. -/
def HoldsIdsOf (chart : Chart) (held : Finset String) (Present : NodeId → Prop) : Prop :=
  ∀ id, id ∈ held ↔ ∃ node, Present node ∧ chart.idOf node = id

section Presence

variable (executable : chart.IsExecutable)
include executable

namespace HoldsIdsOf

variable {held : Finset String} {Present : NodeId → Prop} (holds : chart.HoldsIdsOf held Present)
  (proper : ∀ node, Present node → chart.IsProper node)
include holds proper

theorem idOf_mem_iff {node : NodeId} (isProper : chart.IsProper node) :
    chart.idOf node ∈ held ↔ Present node := by
  rw [holds]
  constructor
  · rintro ⟨other, present, same⟩
    exact executable.eq_of_idOf_eq (proper other present) isProper same ▸ present
  · exact fun present => ⟨node, present, rfl⟩

theorem erase {node : NodeId} (isProper : chart.IsProper node) :
    chart.HoldsIdsOf (held.erase (chart.idOf node))
      (fun other => Present other ∧ other ≠ node) := by
  intro id
  rw [Finset.mem_erase, holds]
  constructor
  · rintro ⟨different, other, present, rfl⟩
    exact ⟨other, ⟨present, fun same => different (congrArg chart.idOf same)⟩, rfl⟩
  · rintro ⟨other, ⟨present, different⟩, rfl⟩
    exact ⟨fun same => different
      (executable.eq_of_idOf_eq (proper other present) isProper same), other, present, rfl⟩

omit executable proper in
theorem insert (node : NodeId) :
    chart.HoldsIdsOf (Insert.insert (chart.idOf node) held)
      (fun other => Present other ∨ other = node) := by
  intro id
  rw [Finset.mem_insert, holds]
  constructor
  · rintro (rfl | ⟨other, present, rfl⟩)
    · exact ⟨node, .inr rfl, rfl⟩
    · exact ⟨other, .inl present, rfl⟩
  · rintro ⟨other, present | rfl, rfl⟩
    · exact .inr ⟨other, present, rfl⟩
    · exact .inl rfl

/-- Exits are timely if what is below an exited node is exited before it. -/
theorem exits {exited : List NodeId} (present : ∀ node ∈ exited, Present node)
    (downward : ∀ node ∈ exited, ∀ lower, Present lower → chart.isDescendant lower node = true →
      lower ∈ exited)
    (inner_first : exited.Pairwise (fun a b => ¬ chart.isDescendant b a = true))
    (distinct : exited.Nodup) :
    chart.AreTimely held (exited.map (fun node => .exited (chart.idOf node))) ∧
      chart.HoldsIdsOf ((exited.map (fun node => .exited (chart.idOf node))).foldl hold held)
        (fun node => Present node ∧ ¬ node ∈ exited) := by
  induction exited generalizing held Present with
  | nil => simpa [AreTimely] using holds
  | cons first rest ih =>
      have isPresent := present first List.mem_cons_self
      have isProper := proper first isPresent
      obtain ⟨notBelow, others⟩ := List.pairwise_cons.1 inner_first
      obtain ⟨notAgain, restDistinct⟩ := List.nodup_cons.1 distinct
      -- What is below the first node would be exited as well, but nothing later is below it.
      have nothingBelow : ∀ lower, chart.isDescendant lower first = true → ¬ Present lower := by
        intro lower below isLower
        rcases List.mem_cons.1 (downward first List.mem_cons_self lower isLower below) with
          same | later
        · exact executable.tree.not_isDescendant_self first (same ▸ below)
        · exact notBelow lower later below
      obtain ⟨timely, holdsAfter⟩ := ih (holds.erase executable proper isProper)
        (fun node present => proper node present.1)
        (fun node later => ⟨present node (List.mem_cons_of_mem _ later),
          fun same => notAgain (same ▸ later)⟩)
        (fun node later lower isLower below => (List.mem_cons.1 (downward node
          (List.mem_cons_of_mem _ later) lower isLower.1 below)).resolve_left isLower.2)
        others restDistinct
      refine ⟨⟨⟨(holds.idOf_mem_iff executable proper isProper).2 isPresent, first,
        executable.lookup_idOf isProper, fun lower below => ?_⟩, timely⟩, ?_⟩
      · rw [holds.idOf_mem_iff executable proper
          (executable.tree.isProper_of_isDescendant below)]
        exact nothingBelow lower below
      · intro id
        refine (holdsAfter id).trans (exists_congr fun node => and_congr_left fun _ => ?_)
        dsimp only
        rw [List.mem_cons, not_or, and_assoc]

/-- Entries are timely if the parent of an entered node is entered before it, unless
it is present already. -/
theorem entries {entered : List NodeId} (isProper : ∀ node ∈ entered, chart.IsProper node)
    (absent : ∀ node ∈ entered, ¬ Present node)
    (upward : ∀ node ∈ entered, ∀ parent, chart.parent node = some parent →
      parent = rootId ∨ Present parent ∨ parent ∈ entered)
    (outer_first : entered.Pairwise (fun a b => ¬ chart.isDescendant a b = true))
    (distinct : entered.Nodup) :
    chart.AreTimely held (entered.map (fun node => .entered (chart.idOf node))) ∧
      chart.HoldsIdsOf ((entered.map (fun node => .entered (chart.idOf node))).foldl hold held)
        (fun node => Present node ∨ node ∈ entered) := by
  induction entered generalizing held Present with
  | nil => simpa [AreTimely] using holds
  | cons first rest ih =>
      have firstProper := isProper first List.mem_cons_self
      obtain ⟨notBelow, others⟩ := List.pairwise_cons.1 outer_first
      obtain ⟨notAgain, restDistinct⟩ := List.nodup_cons.1 distinct
      obtain ⟨parent, isParent, -⟩ := executable.tree.exists_parent first firstProper.1
        firstProper.2
      -- The parent is not entered later, as no node is below one that comes later.
      have parentHeld : parent = rootId ∨ chart.idOf parent ∈ held := by
        rcases upward first List.mem_cons_self parent isParent with isRoot | present | isEntered
        · exact .inl isRoot
        · exact .inr ((holds _).2 ⟨parent, present, rfl⟩)
        · have above := executable.tree.isDescendant_of_parent isParent
          rcases List.mem_cons.1 isEntered with same | later
          · exact absurd (same ▸ above) (executable.tree.not_isDescendant_self parent)
          · exact absurd above (notBelow parent later)
      have notHeld : ¬ chart.idOf first ∈ held := by
        rw [holds.idOf_mem_iff executable proper firstProper]
        exact absent first List.mem_cons_self
      obtain ⟨timely, holdsAfter⟩ := ih (holds.insert first)
        (fun node present => present.elim (proper node) (fun same => same ▸ firstProper))
        (fun node later => isProper node (List.mem_cons_of_mem _ later))
        (fun node later => fun present => present.elim
          (absent node (List.mem_cons_of_mem _ later)) (fun same => notAgain (same ▸ later)))
        (fun node later upper isUpper => by
          rcases upward node (List.mem_cons_of_mem _ later) upper isUpper with
            isRoot | present | isEntered
          · exact .inl isRoot
          · exact .inr (.inl (.inl present))
          · rcases List.mem_cons.1 isEntered with same | isRest
            · exact .inr (.inl (.inr same))
            · exact .inr (.inr isRest))
        others restDistinct
      refine ⟨⟨⟨notHeld, first, parent, executable.lookup_idOf firstProper,
        isParent, parentHeld⟩, timely⟩, ?_⟩
      intro id
      refine (holdsAfter id).trans (exists_congr fun node => and_congr_left fun _ => ?_)
      dsimp only
      rw [List.mem_cons, or_assoc]

end HoldsIdsOf

end Presence

end Chart

end Statechart
