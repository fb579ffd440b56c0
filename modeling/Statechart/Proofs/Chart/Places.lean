import Mathlib.Data.List.Induction
import Statechart.Proofs.Chart.DocumentWalk
import Statechart.Proofs.Chart.Revision

/-!
# Places and their numbers

A place is listed once, with the node itself or, for a history and its default
transition, with the parent.  So numbering gives every place that is listed its index
in the list.
-/

namespace Statechart

namespace Chart

variable {chart before after : Chart}

/-- A place that is there. -/
def IsPlace (chart : Chart) : Place → Prop
  | .node id => id < chart.nodeCount
  | .transition id => id < chart.transitionCount

/-- The number that validation has given to a place. -/
def orderOf (chart : Chart) : Place → Nat
  | .node id => (chart.node id).order
  | .transition id => (chart.transition id).order

/-- The node itself, or the source of a transition. -/
def ownerOf (chart : Chart) : Place → NodeId
  | .node id => id
  | .transition id => (chart.transition id).source

/-- The node with which a place is listed. -/
def homeOf (chart : Chart) (place : Place) : NodeId :=
  if (chart.node (chart.ownerOf place)).isHistory then
    (chart.parent (chart.ownerOf place)).getD rootId
  else
    chart.ownerOf place

theorem homeOf_of_owner {place : Place} {id : NodeId}
    (regular : (chart.node id).isHistory = false) (isOwner : chart.ownerOf place = id) :
    chart.homeOf place = id := by
  rw [homeOf, isOwner, regular, if_neg Bool.false_ne_true]

theorem homeOf_of_history {place : Place} {history id : NodeId}
    (isHistory : (chart.node history).isHistory = true) (isParent : chart.parent history = some id)
    (isOwner : chart.ownerOf place = history) : chart.homeOf place = id := by
  rw [homeOf, isOwner, isHistory, if_pos rfl, isParent, Option.getD_some]

/-! ## Lists of places -/

/-- The places of a history: itself and its default transition. -/
def historyPlaces (chart : Chart) (history : NodeId) : List Place :=
  .node history :: (chart.node history).historyDefault.toList.map .transition

/-- The places of a node but for itself and its histories. -/
def ownPlaces (chart : Chart) (id : NodeId) : List Place :=
  ((chart.node id).initial.toList ++ (chart.node id).transitions).map .transition

theorem placesOf_eq (id : NodeId) :
    chart.placesOf id =
      .node id :: ((chart.node id).histories.flatMap chart.historyPlaces ++ chart.ownPlaces id) := by
  have histories : chart.historyPlaces = fun history =>
      .node history :: (chart.node history).historyDefault.toList.map .transition := rfl
  simp [placesOf, histories, ownPlaces]

namespace IsOwned

variable (owned : chart.IsOwned)
include owned

theorem ownerOf_of_mem_historyPlaces {history : NodeId} {place : Place}
    (listed : place ∈ chart.historyPlaces history) : chart.ownerOf place = history := by
  rcases List.mem_cons.1 listed with rfl | isDefault
  · rfl
  · obtain ⟨transition, isTransition, rfl⟩ := List.mem_map.1 isDefault
    exact (owned.own history transition
      (List.mem_append_left _ (List.mem_append_right _ isTransition))).2

theorem isTransitionOf_of_mem_ownPlaces {id : NodeId} {place : Place}
    (listed : place ∈ chart.ownPlaces id) :
    ∃ transition, place = .transition transition ∧ chart.IsTransitionOf id transition := by
  obtain ⟨transition, isTransition, rfl⟩ := List.mem_map.1 listed
  refine ⟨transition, rfl, owned.own id transition ?_⟩
  rcases List.mem_append.1 isTransition with isInitial | isOutgoing
  · exact List.mem_append_left _ (List.mem_append_left _ isInitial)
  · exact List.mem_append_right _ isOutgoing

theorem ownerOf_of_mem_ownPlaces {id : NodeId} {place : Place}
    (listed : place ∈ chart.ownPlaces id) : chart.ownerOf place = id := by
  obtain ⟨transition, rfl, isOwn⟩ := owned.isTransitionOf_of_mem_ownPlaces listed
  exact isOwn.2

theorem nodup_ownPlaces (id : NodeId) : (chart.ownPlaces id).Nodup := by
  refine List.Nodup.map (fun _ _ same => Place.transition.inj same) ((owned.nodup id).sublist ?_)
  exact (List.sublist_append_left _ _).append (.refl _)

end IsOwned

theorem nodup_historyPlaces (history : NodeId) : (chart.historyPlaces history).Nodup := by
  unfold historyPlaces
  cases (chart.node history).historyDefault <;> simp

namespace IsGrown

variable (grown : chart.IsGrown)
include grown

/-- Places are listed with the node that is their home. -/
theorem homeOf_of_mem_placesOf {id : NodeId} {place : Place}
    (regular : (chart.node id).isHistory = false) (listed : place ∈ chart.placesOf id) :
    chart.homeOf place = id := by
  rw [placesOf_eq] at listed
  rcases List.mem_cons.1 listed with rfl | later
  · exact homeOf_of_owner regular rfl
  rcases List.mem_append.1 later with ofHistory | own
  · obtain ⟨history, isMember, listed⟩ := List.mem_flatMap.1 ofHistory
    obtain ⟨isParent, isHistory⟩ := (grown.planted.mem_histories id history).1 isMember
    exact homeOf_of_history isHistory isParent (grown.owned.ownerOf_of_mem_historyPlaces listed)
  · exact homeOf_of_owner regular (grown.owned.ownerOf_of_mem_ownPlaces own)

theorem nodup_placesOf (id : NodeId) : (chart.placesOf id).Nodup := by
  have tree := grown.planted
  have ownerOf : ∀ place ∈ (chart.node id).histories.flatMap chart.historyPlaces,
      ∃ history ∈ (chart.node id).histories, chart.ownerOf place = history := by
    intro place listed
    obtain ⟨history, isMember, listed⟩ := List.mem_flatMap.1 listed
    exact ⟨history, isMember, grown.owned.ownerOf_of_mem_historyPlaces listed⟩
  have apart : ∀ history ∈ (chart.node id).histories, history ≠ id := by
    intro history isMember
    exact Nat.ne_of_gt (tree.parent_lt ((tree.mem_histories id history).1 isMember).1)
  rw [placesOf_eq]
  refine List.nodup_cons.2 ⟨fun later => ?_, List.nodup_append.2 ⟨?_, ?_, ?_⟩⟩
  · rcases List.mem_append.1 later with ofHistory | own
    · obtain ⟨history, isMember, isOwner⟩ := ownerOf _ ofHistory
      exact apart history isMember isOwner.symm
    · obtain ⟨transition, same, -⟩ := grown.owned.isTransitionOf_of_mem_ownPlaces own
      cases same
  · refine List.nodup_flatMap.2 ⟨fun history _ => nodup_historyPlaces history, ?_⟩
    refine (tree.increasing_histories id).imp fun below place inFirst inSecond => ?_
    have first := grown.owned.ownerOf_of_mem_historyPlaces inFirst
    have second := grown.owned.ownerOf_of_mem_historyPlaces inSecond
    exact Nat.ne_of_lt below (first.symm.trans second)
  · exact grown.owned.nodup_ownPlaces id
  · rintro place ofHistory _ own rfl
    obtain ⟨history, isMember, isOwner⟩ := ownerOf place ofHistory
    exact apart history isMember (isOwner.symm.trans (grown.owned.ownerOf_of_mem_ownPlaces own))

theorem isPlace_of_mem_placesOf {id : NodeId} {place : Place} (inside : id < chart.nodeCount)
    (listed : place ∈ chart.placesOf id) : chart.IsPlace place := by
  rw [placesOf_eq] at listed
  rcases List.mem_cons.1 listed with rfl | later
  · exact inside
  rcases List.mem_append.1 later with ofHistory | own
  · obtain ⟨history, isMember, listed⟩ := List.mem_flatMap.1 ofHistory
    rcases List.mem_cons.1 listed with rfl | isDefault
    · exact lt_nodeCount_of_parent ((grown.planted.mem_histories id history).1 isMember).1
    · obtain ⟨transition, isTransition, rfl⟩ := List.mem_map.1 isDefault
      exact (grown.owned.own history transition
        (List.mem_append_left _ (List.mem_append_right _ isTransition))).1
  · obtain ⟨transition, rfl, isOwn⟩ := grown.owned.isTransitionOf_of_mem_ownPlaces own
    exact isOwn.1

end IsGrown

/-! ## All places -/

theorem IsGrown.nodup_places (grown : chart.IsGrown) : chart.places.Nodup := by
  have tree := grown.planted
  refine List.nodup_flatMap.2 ⟨fun id _ => grown.nodup_placesOf id, ?_⟩
  refine tree.nodup_documentWalk.imp_of_mem ?_
  intro first second walkedFirst walkedSecond different place inFirst inSecond
  have isFirst := grown.homeOf_of_mem_placesOf (tree.isOwner_of_mem_documentWalk walkedFirst).2
    inFirst
  have isSecond := grown.homeOf_of_mem_placesOf (tree.isOwner_of_mem_documentWalk walkedSecond).2
    inSecond
  exact different (isFirst.symm.trans isSecond)

theorem IsGrown.isPlace_of_mem_places (grown : chart.IsGrown) {place : Place}
    (listed : place ∈ chart.places) : chart.IsPlace place := by
  obtain ⟨id, walked, listed⟩ := List.mem_flatMap.1 listed
  exact grown.isPlace_of_mem_placesOf (grown.planted.isOwner_of_mem_documentWalk walked).1 listed

/-- What a chart declares tells where its places are listed. -/
theorem Reproduces.placesOf_eq (reproduces : Reproduces before after) :
    after.placesOf = before.placesOf := by
  have initial := reproduces.part_eq Node.initial fun _ => rfl
  have historyDefault := reproduces.part_eq Node.historyDefault fun _ => rfl
  have histories := reproduces.part_eq Node.histories fun _ => rfl
  have transitions := reproduces.part_eq Node.transitions fun _ => rfl
  funext id
  rw [placesOf, placesOf]
  simp only [initial, historyDefault, histories, transitions]

theorem Reproduces.places_eq (reproduces : Reproduces before after) :
    after.places = before.places := by
  have children := reproduces.part_eq Node.children fun _ => rfl
  rw [places, places, documentWalk, documentWalk, reproduces.placesOf_eq, reproduces.nodeCount_eq]
  simp only [children]

/-! ## Numbers -/

theorem isPlace_numberPlace (numbered : Place × Nat) {place : Place} :
    (chart.numberPlace numbered).IsPlace place ↔ chart.IsPlace place := by
  obtain ⟨other, order⟩ := numbered
  cases other <;> cases place <;> simp [numberPlace, IsPlace, modifyNode, modifyTransition,
    nodeCount, transitionCount]

theorem orderOf_numberPlace_self {place : Place} (isPlace : chart.IsPlace place) (order : Nat) :
    (chart.numberPlace (place, order)).orderOf place = order := by
  cases place with
  | node id => exact congrArg Node.order (node_modifyNode_self isPlace _)
  | transition id => exact congrArg Transition.order (transition_modifyTransition_self isPlace _)

theorem orderOf_numberPlace_of_ne {place other : Place} (different : other ≠ place) (order : Nat) :
    (chart.numberPlace (place, order)).orderOf other = chart.orderOf other := by
  cases place with
  | node id =>
      cases other with
      | node otherId =>
          have apart : otherId ≠ id := fun same => different (congrArg Place.node same)
          exact congrArg Node.order (node_modifyNode_of_ne apart _)
      | transition otherId => rfl
  | transition id =>
      cases other with
      | node otherId => rfl
      | transition otherId =>
          have apart : otherId ≠ id := fun same => different (congrArg Place.transition same)
          exact congrArg Transition.order (transition_modifyTransition_of_ne apart _)

theorem isPlace_foldl_numberPlace (numbered : List (Place × Nat)) {place : Place} :
    (numbered.foldl numberPlace chart).IsPlace place ↔ chart.IsPlace place := by
  induction numbered generalizing chart with
  | nil => rfl
  | cons first rest ih => exact ih.trans (isPlace_numberPlace first)

/-- The number of a place is one that it has been given. -/
theorem mem_of_foldl_numberPlace {place : Place} (isPlace : chart.IsPlace place)
    {numbered : List (Place × Nat)} (listed : place ∈ numbered.map Prod.fst) :
    (place, (numbered.foldl numberPlace chart).orderOf place) ∈ numbered := by
  induction numbered using List.reverseRecOn with
  | nil => cases listed
  | append_singleton earlier last ih =>
      obtain ⟨lastPlace, order⟩ := last
      rw [List.foldl_append, List.foldl_cons, List.foldl_nil]
      by_cases isLast : place = lastPlace
      · subst isLast
        rw [orderOf_numberPlace_self ((isPlace_foldl_numberPlace earlier).2 isPlace)]
        exact List.mem_append_right _ List.mem_cons_self
      · rw [orderOf_numberPlace_of_ne isLast]
        refine List.mem_append_left _ (ih ?_)
        rw [List.map_append, List.mem_append] at listed
        exact listed.resolve_right fun member => isLast (by simpa using member)

/-- What is at the number of a place in the list of places is the place. -/
theorem getElem?_orderOf_assignOrder {place : Place} (isPlace : chart.IsPlace place)
    (listed : place ∈ chart.places) :
    chart.places[chart.assignOrder.orderOf place]? = some place := by
  refine List.mk_mem_zipIdx_iff_getElem?.1 (mem_of_foldl_numberPlace isPlace ?_)
  rw [List.zipIdx_map_fst]
  exact listed

/-- The numbers of the places that are listed are those up to their count, in this order. -/
theorem IsGrown.map_orderOf_assignOrder (grown : chart.IsGrown) :
    chart.places.map chart.assignOrder.orderOf = List.range chart.places.length := by
  refine List.ext_getElem (by simp) fun index bound _ => ?_
  rw [List.length_map] at bound
  have listed := List.getElem_mem bound
  have found := getElem?_orderOf_assignOrder (grown.isPlace_of_mem_places listed) listed
  rw [List.getElem_map, List.getElem_range]
  obtain ⟨inside, same⟩ := List.getElem?_eq_some_iff.1 found
  exact (grown.nodup_places.getElem_inj_iff).1 same

theorem numberPlace_eq_self {place : Place} {order : Nat} (same : chart.orderOf place = order) :
    chart.numberPlace (place, order) = chart := by
  subst same
  cases place with
  | node id => exact modifyNode_eq_self rfl
  | transition id => exact modifyTransition_eq_self rfl

/-- Numbering changes nothing where the numbers are those up to the count of places. -/
theorem assignOrder_eq_self
    (orders : chart.places.map chart.orderOf = List.range chart.places.length) :
    chart.assignOrder = chart := by
  have fixed : ∀ numbered ∈ chart.places.zipIdx, chart.numberPlace numbered = chart := by
    rintro ⟨place, index⟩ listed
    have found := List.mk_mem_zipIdx_iff_getElem?.1 listed
    obtain ⟨inside, rfl⟩ := List.getElem?_eq_some_iff.1 found
    have number := congrArg (fun numbers => numbers[index]?) orders
    exact numberPlace_eq_self (by simpa [inside] using number)
  exact foldl_eq_self fixed

end Chart

end Statechart
