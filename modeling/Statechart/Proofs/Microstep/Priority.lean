import Mathlib.Data.Finset.Max
import Statechart.Proofs.Chart.DocumentOrder
import Statechart.Proofs.Chart.Evaluation
import Statechart.Proofs.Microstep.Enabled

/-!
# Which of the enabled transitions are taken

Climbing from the leaves meets every active node, so that no enabled transition is
overlooked.  Conflicts are found pair by pair, and the comparison of a transition stops
as soon as it is overridden, maybe by one that is overridden itself.  That does no harm:
below every overridden transition there is one that nothing overrides, and its comparison
is never stopped.  So a transition is taken just if it leaves the innermost active state
on its path with an enabled transition, and is the first enabled one of that state.
-/

namespace Statechart

namespace Chart

variable {chart : Chart}

/-! ## All candidates -/

/-- The nodes that climbing has not seen yet. -/
def unseen (chart : Chart) (seen : List NodeId) : Finset NodeId :=
  Finset.range chart.nodeCount \ seen.toFinset

theorem card_unseen_lt {seen : List NodeId} {node : NodeId} (inside : node < chart.nodeCount)
    (fresh : node ∉ seen) : (chart.unseen (node :: seen)).card < (chart.unseen seen).card := by
  have isUnseen : node ∈ chart.unseen seen := by simp [unseen, inside, fresh]
  have isSeen : node ∉ chart.unseen (node :: seen) := by simp [unseen]
  refine Finset.card_lt_card ⟨fun other member => ?_, fun subset => isSeen (subset isUnseen)⟩
  simp only [unseen, Finset.mem_sdiff, List.mem_toFinset, List.mem_cons, not_or] at member ⊢
  exact ⟨member.1, member.2.2⟩

/-- A node of which the parent has been seen, unless that is the root. -/
def IsSettled (chart : Chart) (seen : List NodeId) (node : NodeId) : Prop :=
  ∀ parent, chart.parent node = some parent → parent ≠ rootId → parent ∈ seen

theorem climb_of_isSettled {seen : List NodeId} {node : NodeId}
    (settled : chart.IsSettled seen node) (limit : Nat) (queue : List NodeId) :
    chart.climb (limit + 1) (node :: queue) seen = node :: chart.climb limit queue seen := by
  rw [climb]
  cases isParent : chart.parent node with
  | none => rfl
  | some parent =>
      have known : ¬ (parent != rootId && !seen.contains parent) = true := by
        simpa using settled parent isParent
      simp only [known]
      rfl

theorem climb_of_fresh {seen : List NodeId} {node parent : NodeId}
    (isParent : chart.parent node = some parent) (notRoot : parent ≠ rootId)
    (fresh : parent ∉ seen) (limit : Nat) (queue : List NodeId) :
    chart.climb (limit + 1) (node :: queue) seen =
      node :: chart.climb limit (queue ++ [parent]) (parent :: seen) := by
  rw [climb, isParent]
  simp [notRoot, fresh]

/-- What climbing meets holds the queue, and with what has been seen it holds the parents of
all its nodes. -/
structure Completes (chart : Chart) (queue seen met : List NodeId) : Prop where
  queued : ∀ node ∈ queue, node ∈ met
  closed : ∀ node, node ∈ seen ∨ node ∈ met →
    ∀ parent, chart.parent node = some parent → parent ≠ rootId → parent ∈ seen ∨ parent ∈ met

namespace Completes

variable {queue seen met : List NodeId} {node : NodeId}

theorem stop (settled : ∀ node ∈ seen, chart.IsSettled seen node) : chart.Completes [] seen [] where
  queued := List.forall_mem_nil _
  closed := fun node known parent isParent notRoot =>
    .inl (settled node (known.resolve_right List.not_mem_nil) parent isParent notRoot)

theorem cons_of_isSettled (completes : chart.Completes queue seen met)
    (settled : chart.IsSettled seen node) : chart.Completes (node :: queue) seen (node :: met) where
  queued := fun other member => (List.mem_cons.1 member).elim
    (fun same => same ▸ List.mem_cons_self)
    (fun later => List.mem_cons_of_mem _ (completes.queued other later))
  closed := by
    intro other known parent isParent notRoot
    have earlier : other = node ∨ other ∈ seen ∨ other ∈ met := by
      rw [List.mem_cons] at known
      exact or_left_comm.1 known
    rcases earlier with rfl | earlier
    · exact .inl (settled parent isParent notRoot)
    · exact (completes.closed other earlier parent isParent notRoot).imp_right
        (List.mem_cons_of_mem _)

theorem cons_of_fresh {above : NodeId} (isAbove : chart.parent node = some above)
    (completes : chart.Completes (queue ++ [above]) (above :: seen) met) :
    chart.Completes (node :: queue) seen (node :: met) := by
  have isMet : above ∈ met :=
    completes.queued above (List.mem_append_right _ (List.mem_singleton_self above))
  constructor
  · intro other member
    rcases List.mem_cons.1 member with rfl | later
    · exact List.mem_cons_self
    · exact List.mem_cons_of_mem _ (completes.queued other (List.mem_append_left _ later))
  · intro other known parent isParent notRoot
    have earlier : other = node ∨ other ∈ seen ∨ other ∈ met := by
      rw [List.mem_cons] at known
      exact or_left_comm.1 known
    rcases earlier with rfl | earlier
    · obtain rfl := Option.some.inj (isAbove.symm.trans isParent)
      exact .inr (List.mem_cons_of_mem _ isMet)
    · rcases completes.closed other (earlier.imp_left (List.mem_cons_of_mem _)) parent isParent
        notRoot with isSeen | later
      · rcases List.mem_cons.1 isSeen with rfl | isSeen
        · exact .inr (List.mem_cons_of_mem _ isMet)
        · exact .inl isSeen
      · exact .inr (List.mem_cons_of_mem _ later)

end Completes

/-- What has been seen is still in the queue, or its parent has been seen. -/
def IsPending (chart : Chart) (queue seen : List NodeId) : Prop :=
  ∀ node ∈ seen, node ∈ queue ∨ chart.IsSettled seen node

namespace IsPending

variable {queue seen : List NodeId} {node : NodeId}

theorem isSettled (pending : chart.IsPending [] seen) : ∀ node ∈ seen, chart.IsSettled seen node :=
  fun node isSeen => (pending node isSeen).resolve_left List.not_mem_nil

theorem of_isSettled (pending : chart.IsPending (node :: queue) seen)
    (settled : chart.IsSettled seen node) : chart.IsPending queue seen := by
  intro other isSeen
  rcases pending other isSeen with isQueued | isSettled
  · rcases List.mem_cons.1 isQueued with rfl | later
    · exact .inr settled
    · exact .inl later
  · exact .inr isSettled

theorem of_fresh {parent : NodeId} (pending : chart.IsPending (node :: queue) seen)
    (isParent : chart.parent node = some parent) :
    chart.IsPending (queue ++ [parent]) (parent :: seen) := by
  intro other isSeen
  rcases List.mem_cons.1 isSeen with rfl | earlier
  · exact .inl (List.mem_append_right _ (List.mem_singleton_self _))
  · rcases pending other earlier with isQueued | isSettled
    · rcases List.mem_cons.1 isQueued with rfl | later
      · refine .inr fun above isAbove _ => ?_
        rw [Option.some.inj (isAbove.symm.trans isParent)]
        exact List.mem_cons_self
      · exact .inl (List.mem_append_left _ later)
    · exact .inr fun above isAbove notRoot =>
        List.mem_cons_of_mem _ (isSettled above isAbove notRoot)

end IsPending

/-- Climbing comes to its end: every step takes one node from the queue, and adds one only if
that has not been seen before. -/
theorem completes_climb (tree : chart.IsTree) {limit : Nat} {queue seen : List NodeId}
    (enough : queue.length + (chart.unseen seen).card ≤ limit)
    (pending : chart.IsPending queue seen) :
    chart.Completes queue seen (chart.climb limit queue seen) := by
  induction limit generalizing queue seen with
  | zero =>
      obtain rfl : queue = [] := List.length_eq_zero_iff.1 (by omega)
      exact .stop pending.isSettled
  | succ limit ih =>
      cases queue with
      | nil => exact .stop pending.isSettled
      | cons node queue =>
          rw [List.length_cons] at enough
          by_cases settled : chart.IsSettled seen node
          · rw [climb_of_isSettled settled]
            exact .cons_of_isSettled (ih (by omega) (pending.of_isSettled settled)) settled
          · obtain ⟨parent, isParent, notRoot, fresh⟩ : ∃ parent,
                chart.parent node = some parent ∧ parent ≠ rootId ∧ parent ∉ seen := by
              simpa [IsSettled] using settled
            have fewer := card_unseen_lt (tree.parent_lt_nodeCount isParent) fresh
            rw [climb_of_fresh isParent notRoot fresh]
            refine .cons_of_fresh isParent (ih ?_ (pending.of_fresh isParent))
            rw [List.length_append, List.length_singleton]
            omega

/-- Climbing from a queue meets all that is above it, but not the root. -/
theorem Completes.mem_of_isWithin (tree : chart.IsTree) {queue met : List NodeId}
    (completes : chart.Completes queue queue met) {lower upper : NodeId} (isMet : lower ∈ met)
    (within : chart.isWithin lower upper = true) (notRoot : upper ≠ rootId) : upper ∈ met := by
  induction lower using Nat.strongRecOn with
  | ind lower ih =>
      rcases isWithin_iff.1 within with same | below
      · exact same ▸ isMet
      · obtain ⟨parent, isParent, parentWithin⟩ := tree.isDescendant_iff_parent.1 below
        have parentNotRoot : parent ≠ rootId := by
          rintro rfl
          exact notRoot (tree.eq_root_of_isWithin parentWithin)
        have parentMet : parent ∈ met :=
          (completes.closed lower (.inr isMet) parent isParent parentNotRoot).elim
            (completes.queued parent) id
        exact ih parent (tree.parent_lt isParent) parentMet parentWithin

/-- Candidates are the outgoing transitions of the active nodes. -/
theorem mem_candidates_iff (tree : chart.IsTree) {leaves : NodeSet}
    (atomic : ∀ leaf ∈ leaves, (chart.node leaf).isAtomic = true) {id : TransitionId} :
    id ∈ chart.candidates leaves ↔
      ∃ node ∈ chart.active leaves, id ∈ (chart.node node).transitions := by
  refine ⟨exists_active_of_mem_candidates tree atomic, ?_⟩
  rintro ⟨node, isActive, outgoing⟩
  obtain ⟨notRoot, leaf, isLeaf, within⟩ := tree.mem_active.1 isActive
  have bounded : ∀ seen, (chart.unseen seen).card ≤ chart.nodeCount := fun seen =>
    (Finset.card_le_card Finset.sdiff_subset).trans (Finset.card_range _).le
  have enough := Nat.add_comm .. ▸ Nat.add_le_add_right
    (bounded (chart.inDocumentOrder leaves.toList)) (chart.inDocumentOrder leaves.toList).length
  have completes := completes_climb tree enough fun _ isSeen => .inl isSeen
  refine List.mem_flatMap.2 ⟨node, ?_, outgoing⟩
  exact completes.mem_of_isWithin tree
    (completes.queued leaf ((mem_sortOrdered _).2 isLeaf)) within notRoot

/-! ## Overridden and contested transitions -/

/-- A transition from a source below that of another one. -/
def IsInner (chart : Chart) (inner outer : TransitionId) : Prop :=
  chart.isDescendant (chart.transition inner).source (chart.transition outer).source = true

instance (chart : Chart) (inner outer : TransitionId) : Decidable (chart.IsInner inner outer) :=
  inferInstanceAs (Decidable (_ = true))

theorem compareWith_cons (id other : TransitionId) (rest : List TransitionId)
    (conflicts : Conflicts) :
    chart.compareWith id conflicts (other :: rest) =
      if chart.IsInner other id then
        { conflicts with overridden := id :: conflicts.overridden }
      else if chart.IsInner id other then
        chart.compareWith id { conflicts with overridden := other :: conflicts.overridden } rest
      else
        chart.compareWith id
          { conflicts with contested := id :: other :: conflicts.contested } rest :=
  rfl

/-- Conflicts are only added. -/
structure Conflicts.Grows (before after : Conflicts) : Prop where
  overridden : ∀ id ∈ before.overridden, id ∈ after.overridden
  contested : ∀ id ∈ before.contested, id ∈ after.contested

namespace Conflicts.Grows

theorem trans {first second third : Conflicts} (left : Grows first second)
    (right : Grows second third) : Grows first third :=
  ⟨fun id member => right.overridden id (left.overridden id member),
    fun id member => right.contested id (left.contested id member)⟩

theorem compareWith (chart : Chart) (id : TransitionId) (others : List TransitionId)
    (conflicts : Conflicts) : Grows conflicts (chart.compareWith id conflicts others) := by
  induction others generalizing conflicts with
  | nil => exact ⟨fun _ member => member, fun _ member => member⟩
  | cons other rest ih =>
      have overrides : ∀ outer, Grows conflicts
          { conflicts with overridden := outer :: conflicts.overridden } := fun outer =>
        ⟨fun _ member => List.mem_cons_of_mem _ member, fun _ member => member⟩
      have contests : Grows conflicts
          { conflicts with contested := id :: other :: conflicts.contested } :=
        ⟨fun _ member => member,
          fun _ member => List.mem_cons_of_mem _ (List.mem_cons_of_mem _ member)⟩
      rw [compareWith_cons]
      split
      · exact overrides id
      · split
        · exact (overrides other).trans (ih _)
        · exact contests.trans (ih _)

theorem conflictsAmong (chart : Chart) (ids : List TransitionId) (conflicts : Conflicts) :
    Grows conflicts (chart.conflictsAmong conflicts ids) := by
  induction ids generalizing conflicts with
  | nil => exact ⟨fun _ member => member, fun _ member => member⟩
  | cons id rest ih => exact (compareWith chart id rest conflicts).trans (ih _)

end Conflicts.Grows

section Compare

variable {id other : TransitionId} {others : List TransitionId}

/-- A transition is overridden by any inner one that it is compared with. -/
theorem overridden_compareWith_of_isInner (isOther : other ∈ others)
    (inner : chart.IsInner other id) (conflicts : Conflicts) :
    id ∈ (chart.compareWith id conflicts others).overridden := by
  induction others generalizing conflicts with
  | nil => exact absurd isOther List.not_mem_nil
  | cons first rest ih =>
      rw [compareWith_cons]
      split
      · exact List.mem_cons_self
      · next notInner =>
          have isRest : other ∈ rest :=
            (List.mem_cons.1 isOther).resolve_left fun same => notInner (same ▸ inner)
          split
          · exact ih isRest _
          · exact ih isRest _

/-- A transition without an inner one is compared with all that follow, and overrides those that
it is an inner one to. -/
theorem overridden_of_compareWith (innermost : ∀ later ∈ others, ¬ chart.IsInner later id)
    (isOther : other ∈ others) (inner : chart.IsInner id other) (conflicts : Conflicts) :
    other ∈ (chart.compareWith id conflicts others).overridden := by
  induction others generalizing conflicts with
  | nil => exact absurd isOther List.not_mem_nil
  | cons first rest ih =>
      have innermostRest : ∀ later ∈ rest, ¬ chart.IsInner later id :=
        fun later member => innermost later (List.mem_cons_of_mem _ member)
      rw [compareWith_cons, if_neg (innermost first List.mem_cons_self)]
      rcases List.mem_cons.1 isOther with rfl | isRest
      · rw [if_pos inner]
        exact (Conflicts.Grows.compareWith chart id rest _).overridden other List.mem_cons_self
      · split
        · exact ih innermostRest isRest _
        · exact ih innermostRest isRest _

/-- So it is contested with those that are neither inner nor outer to it. -/
theorem contested_of_compareWith (innermost : ∀ later ∈ others, ¬ chart.IsInner later id)
    (isOther : other ∈ others) (notInner : ¬ chart.IsInner id other) (conflicts : Conflicts) :
    id ∈ (chart.compareWith id conflicts others).contested ∧
      other ∈ (chart.compareWith id conflicts others).contested := by
  induction others generalizing conflicts with
  | nil => exact absurd isOther List.not_mem_nil
  | cons first rest ih =>
      have innermostRest : ∀ later ∈ rest, ¬ chart.IsInner later id :=
        fun later member => innermost later (List.mem_cons_of_mem _ member)
      rw [compareWith_cons, if_neg (innermost first List.mem_cons_self)]
      rcases List.mem_cons.1 isOther with rfl | isRest
      · rw [if_neg notInner]
        have grows := (Conflicts.Grows.compareWith chart id rest
          { conflicts with contested := id :: other :: conflicts.contested }).contested
        exact ⟨grows id List.mem_cons_self,
          grows other (List.mem_cons_of_mem _ List.mem_cons_self)⟩
      · split
        · exact ih innermostRest isRest _
        · exact ih innermostRest isRest _

end Compare

section Among

variable {ids : List TransitionId} {a b : TransitionId}

/-- What is outer to an innermost transition is overridden, whichever of the two comes first. -/
theorem overridden_conflictsAmong (isA : a ∈ ids) (isB : b ∈ ids) (inner : chart.IsInner a b)
    (innermost : ∀ other ∈ ids, ¬ chart.IsInner other a) (conflicts : Conflicts) :
    b ∈ (chart.conflictsAmong conflicts ids).overridden := by
  induction ids generalizing conflicts with
  | nil => exact absurd isA List.not_mem_nil
  | cons first rest ih =>
      have innermostRest : ∀ other ∈ rest, ¬ chart.IsInner other a :=
        fun other member => innermost other (List.mem_cons_of_mem _ member)
      rw [conflictsAmong]
      have grows :=
        Conflicts.Grows.conflictsAmong chart rest (chart.compareWith first conflicts rest)
      rcases List.mem_cons.1 isA with rfl | restA
      · rcases List.mem_cons.1 isB with rfl | restB
        · exact absurd inner (innermost b List.mem_cons_self)
        · exact grows.overridden b (overridden_of_compareWith innermostRest restB inner conflicts)
      · rcases List.mem_cons.1 isB with rfl | restB
        · exact grows.overridden b (overridden_compareWith_of_isInner restA inner conflicts)
        · exact ih restA restB innermostRest _

/-- Overridden are the transitions to which another one is inner. -/
theorem overridden_conflictsAmong_iff (tree : chart.IsTree) (isB : b ∈ ids) :
    b ∈ (chart.conflictsAmong {} ids).overridden ↔ ∃ other ∈ ids, chart.IsInner other b := by
  constructor
  · have none : chart.OverridesFromBelow (· ∈ ids) {} := fun _ member => by cases member
    exact none.conflictsAmong (fun _ member => member) b
  · rintro ⟨other, isOther, inner⟩
    -- Of the transitions inner to it, that from the source with the highest number is innermost.
    classical
    obtain ⟨a, member, highest⟩ := Finset.exists_max_image
      (ids.toFinset.filter (chart.IsInner · b)) (fun id => (chart.transition id).source)
      ⟨other, Finset.mem_filter.2 ⟨List.mem_toFinset.2 isOther, inner⟩⟩
    obtain ⟨isA, innerA⟩ := Finset.mem_filter.1 member
    refine overridden_conflictsAmong (List.mem_toFinset.1 isA) isB innerA
      (fun lower isLower below => ?_) {}
    have innerLower : chart.IsInner lower b :=
      tree.isDescendant_trans_isWithin below (isWithin_of_isDescendant innerA)
    exact absurd (tree.lt_of_isDescendant below) (Nat.not_lt.2
      (highest lower (Finset.mem_filter.2 ⟨List.mem_toFinset.2 isLower, innerLower⟩)))

/-- Two transitions of one source to which no other is inner are contested. -/
theorem contested_conflictsAmong (tree : chart.IsTree) (isA : a ∈ ids) (isB : b ∈ ids)
    (different : a ≠ b) (sameSource : (chart.transition a).source = (chart.transition b).source)
    (innermost : ∀ other ∈ ids, ¬ chart.IsInner other a) (conflicts : Conflicts) :
    a ∈ (chart.conflictsAmong conflicts ids).contested := by
  have apart : ∀ {first second : TransitionId}, (chart.transition first).source =
      (chart.transition second).source → ¬ chart.IsInner first second := by
    intro first second same inner
    rw [IsInner, same] at inner
    exact tree.not_isDescendant_self _ inner
  induction ids generalizing conflicts with
  | nil => exact absurd isA List.not_mem_nil
  | cons first rest ih =>
      have innermostRest : ∀ other ∈ rest, ¬ chart.IsInner other a :=
        fun other member => innermost other (List.mem_cons_of_mem _ member)
      rw [conflictsAmong]
      have grows :=
        Conflicts.Grows.conflictsAmong chart rest (chart.compareWith first conflicts rest)
      rcases List.mem_cons.1 isA with rfl | restA
      · have restB := (List.mem_cons.1 isB).resolve_left (Ne.symm different)
        exact grows.contested a
          (contested_of_compareWith innermostRest restB (apart sameSource) conflicts).1
      · rcases List.mem_cons.1 isB with rfl | restB
        · have innermostB : ∀ other ∈ rest, ¬ chart.IsInner other b := by
            intro other member
            rw [IsInner, ← sameSource]
            exact innermostRest other member
          exact grows.contested a
            (contested_of_compareWith innermostB restA (apart sameSource.symm) conflicts).2
        · exact ih restA restB innermostRest _

end Among

/-! ## One transition per source -/

theorem mem_dropRepeats {ids : List TransitionId} {id : TransitionId} :
    id ∈ dropRepeats ids ↔ id ∈ ids := by
  refine ⟨mem_of_mem_dropRepeats, fun member => ?_⟩
  induction ids with
  | nil => exact member
  | cons first rest ih =>
      cases rest with
      | nil => exact member
      | cons second others =>
          rw [dropRepeats]
          split
          · next same =>
              rcases List.mem_cons.1 member with rfl | later
              · exact ih (same ▸ List.mem_cons_self)
              · exact ih later
          · exact (List.mem_cons.1 member).elim (fun same => same ▸ List.mem_cons_self)
              fun later => List.mem_cons_of_mem _ (ih later)

/-- Of elements in order, of which no two different ones are equal in order, none is left twice. -/
theorem pairwise_dropRepeats {Place : TransitionId → Nat} {ids : List TransitionId}
    (sorted : ids.Pairwise (fun a b => Place a ≤ Place b))
    (distinct : ∀ a ∈ ids, ∀ b ∈ ids, Place a = Place b → a = b) :
    (dropRepeats ids).Pairwise (fun a b => Place a < Place b) := by
  induction ids with
  | nil => exact .nil
  | cons first rest ih =>
      obtain ⟨least, sortedRest⟩ := List.pairwise_cons.1 sorted
      have distinctRest : ∀ a ∈ rest, ∀ b ∈ rest, Place a = Place b → a = b := fun a isA b isB =>
        distinct a (List.mem_cons_of_mem _ isA) b (List.mem_cons_of_mem _ isB)
      cases rest with
      | nil => exact List.pairwise_singleton _ _
      | cons second others =>
          rw [dropRepeats]
          split
          · exact ih sortedRest distinctRest
          · next different =>
              refine List.pairwise_cons.2 ⟨fun other member => ?_, ih sortedRest distinctRest⟩
              have isRest := mem_of_mem_dropRepeats member
              have isLater := Nat.lt_of_le_of_ne (least second List.mem_cons_self) fun same =>
                different (distinct first List.mem_cons_self second
                  (List.mem_cons_of_mem _ List.mem_cons_self) same)
              rcases List.mem_cons.1 isRest with rfl | isOther
              · exact isLater
              · exact Nat.lt_of_lt_of_le isLater ((List.pairwise_cons.1 sortedRest).1 other isOther)

/-- A transition that comes no later than others of its source. -/
def IsFirstAmong (chart : Chart) (ids : List TransitionId) (id : TransitionId) : Prop :=
  ∀ other ∈ ids, (chart.transition other).source = (chart.transition id).source →
    (chart.transition id).order ≤ (chart.transition other).order

theorem isFirstAmong_cons_iff {first id : TransitionId} {rest : List TransitionId}
    (isLater : (chart.transition first).order < (chart.transition id).order) :
    chart.IsFirstAmong (first :: rest) id ↔
      (chart.transition first).source ≠ (chart.transition id).source ∧
        chart.IsFirstAmong rest id := by
  rw [IsFirstAmong, List.forall_mem_cons]
  refine and_congr_left fun _ => ⟨fun isFirst same => ?_, fun apart same => absurd same apart⟩
  exact absurd (isFirst same) (Nat.not_le.2 isLater)

/-- A transition is kept if it is not contested, or nothing of its source has been kept. -/
def IsFree (chart : Chart) (contested : List TransitionId) (served : List NodeId)
    (id : TransitionId) : Prop :=
  id ∈ contested → (chart.transition id).source ∉ served

/-- Before others in order a transition is kept if it is free, and of the others those that are
not of its source. -/
theorem isFree_and_isFirstAmong_cons_iff {contested rest : List TransitionId}
    {served : List NodeId} {first id : TransitionId}
    (later : ∀ other ∈ rest, (chart.transition first).order < (chart.transition other).order) :
    id ∈ first :: rest ∧ chart.IsFree contested served id ∧
        chart.IsFirstAmong (first :: rest) id ↔
      id = first ∧ chart.IsFree contested served first ∨
        id ∈ rest ∧ chart.IsFree contested served id ∧
          (chart.transition first).source ≠ (chart.transition id).source ∧
          chart.IsFirstAmong rest id := by
  constructor
  · rintro ⟨member, free, isLeast⟩
    rcases List.mem_cons.1 member with rfl | isRest
    · exact .inl ⟨rfl, free⟩
    · exact .inr ⟨isRest, free, (isFirstAmong_cons_iff (later id isRest)).1 isLeast⟩
  · rintro (⟨rfl, free⟩ | ⟨isRest, free, isLeast⟩)
    · refine ⟨List.mem_cons_self, free, fun other member _ => ?_⟩
      rcases List.mem_cons.1 member with rfl | isRest
      · exact Nat.le_refl _
      · exact Nat.le_of_lt (later other isRest)
    · exact ⟨List.mem_cons_of_mem _ isRest, free,
        (isFirstAmong_cons_iff (later id isRest)).2 isLeast⟩

/-- What is free once a source is served was free before, and is not of that source. -/
theorem isFree_cons_iff {contested : List TransitionId} {served : List NodeId} {source : NodeId}
    {id : TransitionId}
    (isContested : source = (chart.transition id).source → id ∈ contested) :
    chart.IsFree contested (source :: served) id ↔
      chart.IsFree contested served id ∧ source ≠ (chart.transition id).source := by
  constructor
  · intro free
    refine ⟨fun isListed member => free isListed (List.mem_cons_of_mem _ member), fun same => ?_⟩
    exact free (isContested same) (same ▸ List.mem_cons_self)
  · rintro ⟨free, apart⟩ isListed member
    exact (List.mem_cons.1 member).elim (fun same => apart same.symm) (free isListed)

/-- Where transitions of one source are contested, the first one of each source is kept. -/
theorem mem_firstPerSource_iff {contested ids : List TransitionId} {served : List NodeId}
    (sorted : ids.Pairwise (fun a b => (chart.transition a).order < (chart.transition b).order))
    (twins : ∀ a ∈ ids, ∀ b ∈ ids, a ≠ b →
      (chart.transition a).source = (chart.transition b).source → a ∈ contested)
    {id : TransitionId} :
    id ∈ chart.firstPerSource contested served ids ↔
      id ∈ ids ∧ chart.IsFree contested served id ∧ chart.IsFirstAmong ids id := by
  induction ids generalizing served with
  | nil => simp [firstPerSource]
  | cons first rest ih =>
      obtain ⟨later, sortedRest⟩ := List.pairwise_cons.1 sorted
      have keeps : ∀ served, id ∈ chart.firstPerSource contested served rest ↔
          id ∈ rest ∧ chart.IsFree contested served id ∧ chart.IsFirstAmong rest id :=
        fun served => ih sortedRest fun a isA b isB =>
          twins a (List.mem_cons_of_mem _ isA) b (List.mem_cons_of_mem _ isB)
      have areContested : id ∈ rest →
          (chart.transition first).source = (chart.transition id).source →
          first ∈ contested ∧ id ∈ contested := by
        intro isRest same
        have different : first ≠ id := by
          rintro rfl
          exact Nat.lt_irrefl _ (later first isRest)
        exact ⟨twins first List.mem_cons_self id (List.mem_cons_of_mem _ isRest) different same,
          twins id (List.mem_cons_of_mem _ isRest) first List.mem_cons_self different.symm
            same.symm⟩
      rw [isFree_and_isFirstAmong_cons_iff later, firstPerSource]
      split
      · next uncontested =>
          rw [Bool.not_eq_true', ← Bool.not_eq_true, List.contains_iff_mem] at uncontested
          rw [List.mem_cons, keeps]
          refine or_congr (iff_self_and.2 fun _ isContested => absurd isContested uncontested)
            (and_congr_right fun isRest => and_congr_right fun _ => iff_and_self.2 fun _ same => ?_)
          exact uncontested (areContested isRest same).1
      · next isContested =>
          rw [Bool.not_eq_true', Bool.not_eq_false, List.contains_iff_mem] at isContested
          split
          · next isServed =>
              rw [List.contains_iff_mem] at isServed
              have notFree : ¬ (id = first ∧ chart.IsFree contested served first) := by
                rintro ⟨rfl, free⟩
                exact free isContested isServed
              rw [keeps, or_iff_right notFree]
              refine and_congr_right fun isRest => and_congr_right fun free =>
                iff_and_self.2 fun _ same => ?_
              exact free (areContested isRest same).2 (same ▸ isServed)
          · next notServed =>
              rw [List.contains_iff_mem] at notServed
              rw [List.mem_cons, keeps]
              refine or_congr (iff_self_and.2 fun _ _ => notServed)
                (and_congr_right fun isRest => ?_)
              rw [isFree_cons_iff fun same => (areContested isRest same).2, and_assoc]

theorem firstPerSource_sublist {contested ids : List TransitionId} {served : List NodeId} :
    (chart.firstPerSource contested served ids).Sublist ids := by
  induction ids generalizing served with
  | nil => exact .refl []
  | cons first rest ih =>
      rw [firstPerSource]
      split
      · exact ih.cons_cons first
      · split
        · exact ih.cons first
        · exact ih.cons_cons first

/-! ## What resolving conflicts leaves -/

/-- The enabled transitions that are not overridden, in document order. -/
def remainingOf (chart : Chart) (enabled : List TransitionId) : List TransitionId :=
  dropRepeats (sortOrdered chart.transitionPrecedes
    (enabled.filter (fun id => !(chart.conflictsAmong {} enabled).overridden.contains id)))

theorem resolveConflicts_eq (enabled : List TransitionId) :
    chart.resolveConflicts enabled = chart.firstPerSource
      (chart.conflictsAmong {} enabled).contested [] (chart.remainingOf enabled) :=
  rfl

theorem mem_remainingOf (tree : chart.IsTree) {enabled : List TransitionId} {id : TransitionId} :
    id ∈ chart.remainingOf enabled ↔
      id ∈ enabled ∧ ∀ other ∈ enabled, ¬ chart.IsInner other id := by
  rw [remainingOf, mem_dropRepeats, mem_sortOrdered, List.mem_filter]
  refine and_congr_right fun isEnabled => ?_
  rw [Bool.not_eq_true', ← Bool.not_eq_true, List.contains_iff_mem,
    overridden_conflictsAmong_iff tree isEnabled]
  simp

section Resolve

variable (tree : chart.IsTree) {enabled : List TransitionId}
variable (distinct : ∀ a ∈ enabled, ∀ b ∈ enabled,
  (chart.transition a).order = (chart.transition b).order → a = b)
include tree distinct

theorem pairwise_remainingOf :
    (chart.remainingOf enabled).Pairwise
      (fun a b => (chart.transition a).order < (chart.transition b).order) := by
  have isEnabled : ∀ {id}, id ∈ sortOrdered chart.transitionPrecedes (enabled.filter
      (fun id => !(chart.conflictsAmong {} enabled).overridden.contains id)) → id ∈ enabled :=
    fun member => (mem_remainingOf tree).1 (mem_dropRepeats.2 member) |>.1
  refine pairwise_dropRepeats ?_ fun a isA b isB => distinct a (isEnabled isA) b (isEnabled isB)
  refine (pairwise_sortOrdered chart.transitionPrecedes ?_ ?_ _).imp of_decide_eq_true
  · intro a b
    simpa [transitionPrecedes] using Nat.le_total _ _
  · intro a b c first second
    rw [transitionPrecedes, decide_eq_true_iff] at first second ⊢
    exact Nat.le_trans first second

/-- What is left comes in document order. -/
theorem pairwise_resolveConflicts :
    (chart.resolveConflicts enabled).Pairwise
      (fun a b => (chart.transition a).order < (chart.transition b).order) :=
  (pairwise_remainingOf tree distinct).sublist firstPerSource_sublist

/-- Left are the transitions to which none is inner, the first one of each source. -/
theorem mem_resolveConflicts_iff {id : TransitionId} :
    id ∈ chart.resolveConflicts enabled ↔
      id ∈ enabled ∧ (∀ other ∈ enabled, ¬ chart.IsInner other id) ∧
        chart.IsFirstAmong enabled id := by
  have twins : ∀ a ∈ chart.remainingOf enabled, ∀ b ∈ chart.remainingOf enabled, a ≠ b →
      (chart.transition a).source = (chart.transition b).source →
      a ∈ (chart.conflictsAmong {} enabled).contested := by
    intro a isA b isB different same
    obtain ⟨enabledA, innermost⟩ := (mem_remainingOf tree).1 isA
    exact contested_conflictsAmong tree enabledA ((mem_remainingOf tree).1 isB).1 different same
      innermost {}
  have isFree : chart.IsFree (chart.conflictsAmong {} enabled).contested [] id :=
    fun _ => List.not_mem_nil
  rw [resolveConflicts_eq, mem_firstPerSource_iff (pairwise_remainingOf tree distinct) twins,
    and_iff_right isFree, mem_remainingOf tree, and_assoc]
  refine and_congr_right fun _ => and_congr_right fun innermost => ?_
  refine ⟨fun isFirst other isEnabled same => isFirst other ?_ same,
    fun isFirst other remains => isFirst other ((mem_remainingOf tree).1 remains).1⟩
  -- What has the same source has none inner to it either.
  refine (mem_remainingOf tree).2 ⟨isEnabled, fun inner isInner below => innermost inner isInner ?_⟩
  rwa [IsInner, same] at below

end Resolve

end Chart

namespace World

variable {chart : Chart} {world : World} {events : List Event}

/-- An outgoing transition of a state is enabled. -/
def Offers (world : World) (chart : Chart) (events : List Event) (state : NodeId)
    (id : TransitionId) : Prop :=
  id ∈ (chart.node state).transitions ∧
    chart.enables world.model.context events (world.status.active chart) id = true

/-- An active state that offers a transition while no active state below it does. -/
structure Decides (world : World) (chart : Chart) (events : List Event) (state : NodeId) :
    Prop where
  isActive : state ∈ world.status.active chart
  offers : ∃ id, world.Offers chart events state id
  innermost : ∀ lower ∈ world.status.active chart, chart.isDescendant lower state = true →
    ∀ id, ¬ world.Offers chart events lower id

/-- The offered transition of a state that comes first in the document. -/
structure IsFirstOffer (world : World) (chart : Chart) (events : List Event) (state : NodeId)
    (id : TransitionId) : Prop where
  offered : world.Offers chart events state id
  first : ∀ other, world.Offers chart events state other →
    (chart.transition id).order ≤ (chart.transition other).order

/-- Of some offers one comes first. -/
theorem exists_isFirstOffer {state : NodeId} (offers : ∃ id, world.Offers chart events state id) :
    ∃ id, world.IsFirstOffer chart events state id := by
  classical
  have mem_offers : ∀ id, id ∈ (chart.node state).transitions.toFinset.filter
      (fun id => chart.enables world.model.context events (world.status.active chart) id) ↔
      world.Offers chart events state id := by
    intro id
    rw [Finset.mem_filter, List.mem_toFinset, Offers]
  obtain ⟨offer, isOffer⟩ := offers
  obtain ⟨id, member, least⟩ := Finset.exists_min_image _ (fun id => (chart.transition id).order)
    ⟨offer, (mem_offers offer).2 isOffer⟩
  exact ⟨id, (mem_offers id).1 member, fun other isOther =>
    least other ((mem_offers other).2 isOther)⟩

section Offered

variable (executable : chart.IsExecutable)
  (atomic : ∀ leaf ∈ world.status.leaves, (chart.node leaf).isAtomic = true)
include executable atomic

/-- The enabled candidates are all that active states offer. -/
theorem mem_enabled_iff {id : TransitionId} :
    id ∈ (chart.candidates world.status.leaves).filter
        (chart.enables world.model.context events (world.status.active chart)) ↔
      ∃ state ∈ world.status.active chart, world.Offers chart events state id := by
  rw [List.mem_filter, Chart.mem_candidates_iff executable.tree atomic, ← exists_and_right]
  exact exists_congr fun state => and_assoc

/-- Of what is offered by active states, different transitions have different places. -/
theorem distinct_of_enabled (distinct : chart.HasDistinctOrders) :
    ∀ a ∈ (chart.candidates world.status.leaves).filter
        (chart.enables world.model.context events (world.status.active chart)),
      ∀ b ∈ (chart.candidates world.status.leaves).filter
        (chart.enables world.model.context events (world.status.active chart)),
      (chart.transition a).order = (chart.transition b).order → a = b := by
  intro a isA b isB same
  obtain ⟨first, firstActive, offersA⟩ := (mem_enabled_iff executable atomic).1 isA
  obtain ⟨second, secondActive, offersB⟩ := (mem_enabled_iff executable atomic).1 isB
  have regular : ∀ state ∈ world.status.active chart, (chart.node state).isHistory = false :=
    fun state isActive => (executable.tree.isNode_of_mem_active atomic isActive).2.2
  exact distinct first second (regular first firstActive) (regular second secondActive) a offersA.1
    b offersB.1 same

/-- Selected are the first offers of the states that decide. -/
theorem mem_select_iff (distinct : chart.HasDistinctOrders) (sound : world.model.IsSound)
    {id : TransitionId} :
    id ∈ (world.select chart events).1 ↔
      ∃ state, world.Decides chart events state ∧ world.IsFirstOffer chart events state id := by
  have source : ∀ {state other}, world.Offers chart events state other →
      (chart.transition other).source = state := fun offers =>
    executable.source_eq _ _ offers.1
  rw [(select_eq sound chart events).1, Chart.mem_resolveConflicts_iff executable.tree
    (distinct_of_enabled executable atomic distinct)]
  constructor
  · rintro ⟨isEnabled, innermost, isFirst⟩
    obtain ⟨state, isActive, offers⟩ := (mem_enabled_iff executable atomic).1 isEnabled
    refine ⟨state, ⟨isActive, ⟨id, offers⟩, fun lower lowerActive below other offersOther => ?_⟩,
      offers, fun other offersOther => isFirst other ?_ ?_⟩
    · refine innermost other
        ((mem_enabled_iff executable atomic).2 ⟨lower, lowerActive, offersOther⟩) ?_
      rwa [Chart.IsInner, source offersOther, source offers]
    · exact (mem_enabled_iff executable atomic).2 ⟨state, isActive, offersOther⟩
    · rw [source offersOther, source offers]
  · rintro ⟨state, decides, first⟩
    refine ⟨(mem_enabled_iff executable atomic).2 ⟨state, decides.isActive, first.offered⟩,
      fun other isEnabled inner => ?_, fun other isEnabled same => first.first other ?_⟩
    · obtain ⟨lower, lowerActive, offers⟩ := (mem_enabled_iff executable atomic).1 isEnabled
      rw [Chart.IsInner, source offers, source first.offered] at inner
      exact decides.innermost lower lowerActive inner other offers
    · obtain ⟨otherState, -, offers⟩ := (mem_enabled_iff executable atomic).1 isEnabled
      rw [source offers, source first.offered] at same
      exact same ▸ offers

end Offered

/-- Selected are, in document order and whatever the leaves, the first enabled transitions of
those active states below which nothing is enabled, one of each.  Nothing is selected only if
nothing is enabled. -/
theorem selection_is_innermost_and_first {definition : Definition}
    (accepted : Machine.chartOf definition = .ok chart) (sound : world.model.IsSound)
    (atomic : ∀ leaf ∈ world.status.leaves, (chart.node leaf).isAtomic = true)
    (events : List Event) :
    (world.select chart events).1.Pairwise
        (fun a b => (chart.transition a).order < (chart.transition b).order) ∧
      (∀ id, id ∈ (world.select chart events).1 ↔
        ∃ state, world.Decides chart events state ∧ world.IsFirstOffer chart events state id) ∧
      (∀ state, world.Decides chart events state →
        ∃! id, id ∈ (world.select chart events).1 ∧ id ∈ (chart.node state).transitions) ∧
      ((world.select chart events).1 = [] ↔
        ∀ state ∈ world.status.active chart, ∀ id, ¬ world.Offers chart events state id) := by
  have executable := Chart.isExecutable_of_chartOf accepted
  have distinct := Chart.hasDistinctOrders_of_chartOf accepted
  have selected : ∀ id, id ∈ (world.select chart events).1 ↔
      ∃ state, world.Decides chart events state ∧ world.IsFirstOffer chart events state id :=
    fun id => mem_select_iff executable atomic distinct sound
  refine ⟨?_, selected, fun state decides => ?_, ?_⟩
  · rw [(select_eq sound chart events).1]
    exact Chart.pairwise_resolveConflicts executable.tree
      (distinct_of_enabled executable atomic distinct)
  · obtain ⟨id, first⟩ := exists_isFirstOffer decides.offers
    refine ⟨id, ⟨(selected id).2 ⟨state, decides, first⟩, first.offered.1⟩, ?_⟩
    rintro other ⟨isSelected, outgoing⟩
    obtain ⟨otherState, otherDecides, otherFirst⟩ := (selected other).1 isSelected
    obtain rfl : otherState = state := (executable.source_eq _ _ otherFirst.offered.1).symm.trans
      (executable.source_eq _ _ outgoing)
    have regular := (executable.tree.isNode_of_mem_active atomic decides.isActive).2.2
    exact distinct _ _ regular regular other outgoing id first.offered.1
      (Nat.le_antisymm (otherFirst.first id first.offered) (first.first other otherFirst.offered))
  · rw [select_eq_nil_iff executable.tree sound]
    constructor
    · intro none state isActive id offers
      have isCandidate := (Chart.mem_candidates_iff executable.tree atomic).2
        ⟨state, isActive, offers.1⟩
      exact absurd ((none id isCandidate).symm.trans offers.2) Bool.false_ne_true
    · intro none id isCandidate
      obtain ⟨state, isActive, outgoing⟩ :=
        (Chart.mem_candidates_iff executable.tree atomic).1 isCandidate
      exact Bool.eq_false_iff.2 fun enabled => none state isActive id ⟨outgoing, enabled⟩

/-! ## A ferry -/

/-- A parallel of two regions.  On `go` one of them has two transitions inside and one of its
own, the other one has one of its own only, and so has the parallel. -/
def ferry : Definition :=
  { states := [
      { id := some "ferry", isParallel := true
        transitions := [{ event := some "go", target := some "sunk" }]
        states := [
          { id := some "port"
            transitions := [{ event := some "go", target := some "bow" }]
            states := [
              { id := some "bow", transitions := [
                { event := some "go", target := some "stern" },
                { event := some "go", target := some "bow" }] },
              { id := some "stern" }] },
          { id := some "starboard"
            transitions := [{ event := some "go", target := some "keel" }]
            states := [{ id := some "mast" }, { id := some "keel" }] }] },
      { id := some "sunk" }] }

/-- A world in which the first states of both regions are active. -/
def onFerry : World :=
  { status := { leaves := .ofList [3, 6] } }

/-- On `go` the first transition of the bow and the only one of the starboard region are taken. -/
theorem ferry_takes_innermost :
    (Machine.chartOf ferry = .ok (Machine.chartOrEmpty ferry) ∧ onFerry.model.IsSound ∧
      ∀ leaf ∈ onFerry.status.leaves, ((Machine.chartOrEmpty ferry).node leaf).isAtomic = true) ∧
    ∀ id, id = 2 ∨ id = 4 ↔ ∃ state,
      onFerry.Decides (Machine.chartOrEmpty ferry) [{ name := "go" }] state ∧
      onFerry.IsFirstOffer (Machine.chartOrEmpty ferry) [{ name := "go" }] state id := by
  have accepted : Machine.chartOf ferry = .ok (Machine.chartOrEmpty ferry) :=
    Machine.chartOf_eq_ok (by decide +kernel)
  have sound : onFerry.model.IsSound := DataModel.isSound_fresh _
  have atomic : ∀ leaf ∈ onFerry.status.leaves,
      ((Machine.chartOrEmpty ferry).node leaf).isAtomic = true := by
    intro leaf isLeaf
    have isOne : leaf ∈ [3, 6] := NodeSet.mem_ofList.1 isLeaf
    revert leaf
    decide +kernel
  have taken : (onFerry.select (Machine.chartOrEmpty ferry) [{ name := "go" }]).1 = [2, 4] := by
    decide +kernel
  obtain ⟨-, selected, -, -⟩ := selection_is_innermost_and_first accepted sound atomic
    [{ name := "go" }]
  refine ⟨⟨accepted, sound, atomic⟩, fun id => ?_⟩
  rw [← selected, taken, List.mem_cons, List.mem_singleton]

end World

end Statechart
