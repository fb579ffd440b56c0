import Statechart.Proofs.Chart.Filing
import Statechart.Proofs.Chart.Places
import Statechart.Proofs.Chart.Validated

/-!
# The numbers of a document

In a validated chart of a definition, nodes and transitions have the numbers from zero up to
their count.  A node comes before its histories, its transitions and all that is in its
subtree, and the subtrees of children follow each other like the children.  All this is read
off the list of places, in which a walk that starts at a node is one piece.
-/

namespace Statechart

namespace Chart

variable {chart after : Chart}

/-! ## Homes -/

/-- What every place of a chart has, once all transitions are filed. -/
structure IsHoused (chart : Chart) : Prop where
  tree : chart.IsTree
  owned : chart.IsOwned
  filed : chart.IsFiled

namespace IsHoused

variable (housed : chart.IsHoused)
include housed

theorem ownerOf_lt {place : Place} (isPlace : chart.IsPlace place) :
    chart.ownerOf place < chart.nodeCount := by
  cases place with
  | node id => exact isPlace
  | transition id =>
      have known := housed.filed.filed id isPlace
      apply Nat.lt_of_not_le
      intro outside
      rw [show (chart.transition id).source = chart.ownerOf (.transition id) from rfl,
        node_of_le outside] at known
      exact List.not_mem_nil known

/-- The home of a place is its owner, or the parent of a history that is its owner. -/
theorem homeOf_cases {place : Place} (isPlace : chart.IsPlace place) :
    ((chart.node (chart.ownerOf place)).isHistory = false ∧
        chart.homeOf place = chart.ownerOf place) ∨
      (chart.node (chart.ownerOf place)).isHistory = true ∧
        chart.parent (chart.ownerOf place) = some (chart.homeOf place) := by
  cases isHistory : (chart.node (chart.ownerOf place)).isHistory with
  | false => exact .inl ⟨rfl, homeOf_of_owner isHistory rfl⟩
  | true =>
      have notRoot : chart.ownerOf place ≠ rootId := by
        intro isRoot
        rw [isRoot, housed.tree.not_isHistory_root] at isHistory
        cases isHistory
      obtain ⟨parent, isParent, -⟩ :=
        housed.tree.exists_parent _ notRoot (housed.ownerOf_lt isPlace)
      exact .inr ⟨rfl, homeOf_of_history isHistory isParent rfl ▸ isParent⟩

theorem isOwner_homeOf {place : Place} (isPlace : chart.IsPlace place) :
    chart.homeOf place < chart.nodeCount ∧ (chart.node (chart.homeOf place)).isHistory = false := by
  rcases housed.homeOf_cases isPlace with ⟨regular, same⟩ | ⟨-, isParent⟩
  · exact ⟨same ▸ housed.ownerOf_lt isPlace, same ▸ regular⟩
  · exact ⟨housed.tree.parent_lt_nodeCount isParent, housed.tree.not_isHistory_parent _ _ isParent⟩

/-- All that a history owns is itself and its default transition. -/
theorem mem_historyPlaces {place : Place} (isPlace : chart.IsPlace place)
    (isHistory : (chart.node (chart.ownerOf place)).isHistory = true) :
    place ∈ chart.historyPlaces (chart.ownerOf place) := by
  cases place with
  | node id => exact List.mem_cons_self
  | transition id =>
      have known := housed.filed.filed id isPlace
      have isHistory : (chart.node (chart.transition id).source).isHistory = true := isHistory
      have noInitial : (chart.node (chart.transition id).source).initial = none := by
        cases kind : (chart.node (chart.transition id).source).kind <;>
          simp_all [Node.isHistory, Node.initial]
      rw [Node.references, noInitial, housed.filed.transitions_eq_nil _ isHistory,
        Option.toList_none, List.nil_append, List.append_nil] at known
      exact List.mem_cons_of_mem _ (List.mem_map_of_mem known)

/-- Every place is listed with its home. -/
theorem mem_placesOf_homeOf {place : Place} (isPlace : chart.IsPlace place) :
    place ∈ chart.placesOf (chart.homeOf place) := by
  rw [placesOf_eq]
  rcases housed.homeOf_cases isPlace with ⟨regular, same⟩ | ⟨isHistory, isParent⟩
  · rw [same]
    cases place with
    | node id => exact List.mem_cons_self
    | transition id =>
        have known := housed.filed.filed id isPlace
        have regular : (chart.node (chart.transition id).source).isHistory = false := regular
        have noDefault : (chart.node (chart.transition id).source).historyDefault = none := by
          cases kind : (chart.node (chart.transition id).source).kind <;>
            simp_all [Node.isHistory, Node.historyDefault]
        rw [Node.references, noDefault, Option.toList_none, List.append_nil] at known
        exact List.mem_cons_of_mem _ (List.mem_append_right _ (List.mem_map_of_mem known))
  · have isMember := (housed.tree.mem_histories _ _).2 ⟨isParent, isHistory⟩
    exact List.mem_cons_of_mem _ (List.mem_append_left _ (List.mem_flatMap.2
      ⟨chart.ownerOf place, isMember, housed.mem_historyPlaces isPlace isHistory⟩))

theorem isGrown : chart.IsGrown :=
  ⟨housed.tree.toIsPlanted, housed.owned⟩

theorem mem_places_iff {place : Place} : place ∈ chart.places ↔ chart.IsPlace place := by
  refine ⟨housed.isGrown.isPlace_of_mem_places, fun isPlace => ?_⟩
  obtain ⟨inside, regular⟩ := housed.isOwner_homeOf isPlace
  exact List.mem_flatMap.2
    ⟨chart.homeOf place, housed.tree.mem_documentWalk inside regular,
      housed.mem_placesOf_homeOf isPlace⟩

/-- The places of a history are listed one after the other. -/
theorem historyPlaces_sublist_places {place : Place} (isPlace : chart.IsPlace place)
    (isHistory : (chart.node (chart.ownerOf place)).isHistory = true) :
    (chart.historyPlaces (chart.ownerOf place)).Sublist chart.places := by
  obtain ⟨-, isParent⟩ := (housed.homeOf_cases isPlace).resolve_left fun known =>
    Bool.false_ne_true (known.1.symm.trans isHistory)
  obtain ⟨inside, regular⟩ := housed.isOwner_homeOf isPlace
  have walked := housed.tree.mem_documentWalk inside regular
  have isMember := (housed.tree.mem_histories _ _).2 ⟨isParent, isHistory⟩
  have ofHome := (List.singleton_sublist.2 isMember).flatMap chart.historyPlaces
  have ofWalk := (List.singleton_sublist.2 walked).flatMap chart.placesOf
  rw [List.flatMap_singleton] at ofHome ofWalk
  rw [placesOf_eq] at ofWalk
  exact ((ofHome.trans (List.sublist_append_left _ _)).cons _).trans ofWalk

/-- There are as many places as nodes and transitions. -/
theorem length_places : chart.places.length = chart.nodeCount + chart.transitionCount := by
  let all := chart.nodeIds.map Place.node ++ (List.range chart.transitionCount).map .transition
  have distinct : all.Nodup := by
    refine List.nodup_append.2 ⟨?_, ?_, ?_⟩
    · exact List.nodup_range.map fun _ _ same => Place.node.inj same
    · exact List.nodup_range.map fun _ _ same => Place.transition.inj same
    · intro first isNode second isTransition
      obtain ⟨node, -, rfl⟩ := List.mem_map.1 isNode
      obtain ⟨transition, -, rfl⟩ := List.mem_map.1 isTransition
      exact Place.noConfusion
  have same : chart.places.Perm all := by
    refine (List.perm_ext_iff_of_nodup housed.isGrown.nodup_places distinct).2 fun place => ?_
    rw [housed.mem_places_iff]
    cases place <;> simp [all, IsPlace, nodeIds]
  rw [same.length_eq]
  simp [all, nodeIds]

/-- What is below a regular node has its home below it, too. -/
theorem isWithin_homeOf {place : Place} (isPlace : chart.IsPlace place) {id : NodeId}
    (regular : (chart.node id).isHistory = false)
    (within : chart.isWithin (chart.ownerOf place) id = true) :
    chart.isWithin (chart.homeOf place) id = true := by
  rcases housed.homeOf_cases isPlace with ⟨-, same⟩ | ⟨isHistory, isParent⟩
  · exact same ▸ within
  · rcases isWithin_iff.1 within with same | below
    · rw [same, regular] at isHistory
      cases isHistory
    · obtain ⟨parent, isOther, above⟩ := housed.tree.isDescendant_iff_parent.1 below
      rw [isParent] at isOther
      exact Option.some.inj isOther ▸ above

end IsHoused

/-! ## Numbers -/

/-- The numbers of nodes and transitions are those of the document. -/
structure IsNumbered (chart : Chart) : Prop where
  /-- The numbers are those below the count of nodes and transitions. -/
  exists_place_iff : ∀ order, (∃ place, chart.IsPlace place ∧ chart.orderOf place = order) ↔
    order < chart.nodeCount + chart.transitionCount
  /-- No two nodes or transitions have the same number. -/
  eq_of_orderOf_eq : ∀ first second, chart.IsPlace first → chart.IsPlace second →
    chart.orderOf first = chart.orderOf second → first = second
  /-- A node comes before its histories, each of these before its default transition, and then
  come its initial transition and its outgoing transitions, as declared. -/
  increasing_placesOf : ∀ id, ((chart.placesOf id).map chart.orderOf).Pairwise (· < ·)
  /-- A node comes before all else in its subtree. -/
  lt_of_isWithin : ∀ id place, chart.IsPlace place → place ≠ .node id →
    chart.isWithin (chart.ownerOf place) id = true →
      (chart.node id).order < chart.orderOf place
  /-- The subtree of a child comes before that of a later one. -/
  lt_of_siblings : ∀ parent, (chart.node parent).children.Pairwise fun left right =>
    ∀ first second, chart.IsPlace first → chart.IsPlace second →
      chart.isWithin (chart.ownerOf first) left = true →
      chart.isWithin (chart.ownerOf second) right = true →
        chart.orderOf first < chart.orderOf second

section Numbers

variable (orders : chart.places.map chart.orderOf = List.range chart.places.length)
include orders

/-- Places that are listed one after the other have increasing numbers. -/
theorem increasing_of_sublist {places : List Place} (listed : places.Sublist chart.places) :
    (places.map chart.orderOf).Pairwise (· < ·) := by
  have numbers := listed.map chart.orderOf
  rw [orders] at numbers
  exact List.pairwise_lt_range.sublist numbers

theorem orderOf_lt_of_sublist {first second : Place}
    (listed : [first, second].Sublist chart.places) :
    chart.orderOf first < chart.orderOf second := by
  have increasing := increasing_of_sublist orders listed
  exact (List.pairwise_cons.1 increasing).1 _ (by simp)

variable (housed : chart.IsHoused)
include housed

omit housed in
/-- Of two nodes that the walk meets one after the other, the places come in this order. -/
theorem orderOf_lt_of_walk {first second : Place} {id low : NodeId}
    (walked : [id, low].Sublist chart.documentWalk) (ofFirst : first ∈ chart.placesOf id)
    (ofSecond : second ∈ chart.placesOf low) : chart.orderOf first < chart.orderOf second := by
  refine orderOf_lt_of_sublist orders (.trans ?_ (walked.flatMap chart.placesOf))
  rw [List.flatMap_cons, List.flatMap_singleton]
  exact (List.singleton_sublist.2 ofFirst).append (List.singleton_sublist.2 ofSecond)

theorem IsHoused.increasing_placesOf (id : NodeId) :
    ((chart.placesOf id).map chart.orderOf).Pairwise (· < ·) := by
  by_cases isOwner : id < chart.nodeCount ∧ (chart.node id).isHistory = false
  · have walked := housed.tree.mem_documentWalk isOwner.1 isOwner.2
    have piece := (List.singleton_sublist.2 walked).flatMap chart.placesOf
    rw [List.flatMap_singleton] at piece
    exact increasing_of_sublist orders piece
  · -- A history has no places of its own but itself.
    have alone : chart.placesOf id = [.node id] := by
      by_cases inside : id < chart.nodeCount
      · have isHistory : (chart.node id).isHistory = true := by simpa [inside] using isOwner
        have noMembers : (chart.node id).histories = [] := by
          refine List.eq_nil_iff_forall_not_mem.2 fun member isMember => ?_
          have isParent := ((housed.tree.mem_histories id member).1 isMember).1
          rw [housed.tree.not_isHistory_parent member id isParent] at isHistory
          cases isHistory
        have noInitial : (chart.node id).initial = none := by
          cases kind : (chart.node id).kind <;> simp_all [Node.isHistory, Node.initial]
        simp [placesOf, noMembers, noInitial, housed.filed.transitions_eq_nil id isHistory]
      · rw [placesOf, node_of_le (Nat.le_of_not_lt inside)]
        rfl
    rw [alone]
    exact List.pairwise_singleton _ _

theorem IsHoused.orderOf_lt_of_isWithin {id : NodeId} {place : Place}
    (isPlace : chart.IsPlace place) (different : place ≠ .node id)
    (within : chart.isWithin (chart.ownerOf place) id = true) :
    chart.orderOf (.node id) < chart.orderOf place := by
  have listed := housed.mem_placesOf_homeOf isPlace
  cases regular : (chart.node id).isHistory with
  | false =>
      rcases isWithin_iff.1 (housed.isWithin_homeOf isPlace regular within) with same | below
      · have increasing := housed.increasing_placesOf orders id
        rw [same, placesOf_eq] at listed
        rw [placesOf_eq, List.map_cons] at increasing
        exact (List.pairwise_cons.1 increasing).1 _
          (List.mem_map_of_mem ((List.mem_cons.1 listed).resolve_left different))
      · have walked := housed.tree.pair_sublist_of_isDescendant regular
          (housed.isOwner_homeOf isPlace).2 below
        exact orderOf_lt_of_walk orders walked List.mem_cons_self listed
  | true =>
      -- Nothing is below a history, so the place is its default transition.
      have isOwner : chart.ownerOf place = id := by
        refine (isWithin_iff.1 within).resolve_right fun below => ?_
        obtain ⟨child, isParent, -⟩ := housed.tree.exists_child_above below
        rw [housed.tree.not_isHistory_parent child id isParent] at regular
        cases regular
      subst isOwner
      have isDefault := (List.mem_cons.1 (housed.mem_historyPlaces isPlace regular)).resolve_left
        different
      have pair : [.node (chart.ownerOf place), place].Sublist
          (chart.historyPlaces (chart.ownerOf place)) :=
        (List.singleton_sublist.2 isDefault).cons_cons _
      exact orderOf_lt_of_sublist orders
        (pair.trans (housed.historyPlaces_sublist_places isPlace regular))

/-- Numbers that follow the list of places are those of the document. -/
theorem IsHoused.isNumbered : chart.IsNumbered where
  exists_place_iff := by
    intro order
    rw [← housed.length_places, ← List.mem_range, ← orders, List.mem_map]
    exact exists_congr fun place => and_congr_left fun _ => housed.mem_places_iff.symm
  eq_of_orderOf_eq := by
    intro first second isFirst isSecond same
    have distinct : (chart.places.map chart.orderOf).Nodup := orders ▸ List.nodup_range
    exact List.inj_on_of_nodup_map distinct (housed.mem_places_iff.2 isFirst)
      (housed.mem_places_iff.2 isSecond) same
  increasing_placesOf := housed.increasing_placesOf orders
  lt_of_isWithin := fun id place isPlace different within =>
    housed.orderOf_lt_of_isWithin orders isPlace different within
  lt_of_siblings := by
    intro parent
    refine List.pairwise_iff_forall_sublist.2 fun {left right} siblings => ?_
    intro first second isFirst isSecond withinLeft withinRight
    have regular : ∀ child ∈ [left, right], (chart.node child).isHistory = false :=
      fun child isChild => ((housed.tree.mem_children parent child).1 (siblings.subset isChild)).2
    obtain ⟨insideFirst, regularFirst⟩ := housed.isOwner_homeOf isFirst
    obtain ⟨insideSecond, regularSecond⟩ := housed.isOwner_homeOf isSecond
    have walked := housed.tree.pair_sublist_of_siblings siblings regularFirst regularSecond
      (housed.isWithin_homeOf isFirst (regular left (by simp)) withinLeft)
      (housed.isWithin_homeOf isSecond (regular right (by simp)) withinRight)
      insideFirst insideSecond
    exact orderOf_lt_of_walk orders walked (housed.mem_placesOf_homeOf isFirst)
      (housed.mem_placesOf_homeOf isSecond)

end Numbers

/-! ## Validation -/

theorem IsHoused.reproduces {before : Chart} (housed : before.IsHoused)
    (reproduces : Reproduces before after) : after.IsHoused where
  tree := reproduces.sameTree.isTree housed.tree
  owned := (reproduces.isGrown housed.isGrown).owned
  filed := housed.filed.reproduces reproduces

/-- Validation numbers the nodes and transitions of a definition as they follow each other in
the document. -/
theorem isNumbered_of_validate {definition : Definition}
    (isChart : ofDefinition definition = .ok chart) (isValid : chart.validate = .ok after) :
    after.IsNumbered := by
  have built := isBuilt_ofDefinition isChart
  obtain ⟨named, completed, last, passes, rfl⟩ := exists_passes_of_validate isValid
  obtain ⟨renames, -⟩ := passes.names built.tree.toIsPlanted
  have completedBuilt := passes.prepares.isBuilt (renames.isBuilt built)
  have namedFiled := (isFiled_ofDefinition isChart).reproduces (.of_renames renames)
  have housed : completed.IsHoused :=
    ⟨completedBuilt.tree, completedBuilt.owned,
      namedFiled.addMissingTransitions passes.completed_eq⟩
  exact (housed.reproduces (passes.reproduces built.isGrown)).isNumbered
    (passes.map_orderOf built.isGrown)

/-- The root, the gallery and its wings come with what belongs to them, the garden comes last. -/
theorem gallery_is_numbered :
    ∃ after, (builtOrEmpty (gallery "marble")).validate = .ok after ∧ after.IsNumbered ∧
      after.nodes.toList.map Node.order = [0, 2, 3, 4, 7, 8, 10, 11, 13, 14] ∧
      after.transitions.toList.map Transition.order = [6, 5, 15, 1, 9, 12] := by
  have isChart : ofDefinition (gallery "marble") = .ok (builtOrEmpty (gallery "marble")) :=
    ofDefinition_eq_ok (by decide +kernel)
  have numbers : (builtOrEmpty (gallery "marble")).validate.toOption.map (fun after =>
      (after.nodes.toList.map Node.order, after.transitions.toList.map Transition.order)) =
        some ([0, 2, 3, 4, 7, 8, 10, 11, 13, 14], [6, 5, 15, 1, 9, 12]) := by decide +kernel
  cases isValid : (builtOrEmpty (gallery "marble")).validate with
  | error rejection => simp [isValid, Except.toOption] at numbers
  | ok after =>
      simp only [isValid, Except.toOption, Option.map_some, Option.some.injEq, Prod.mk.injEq]
        at numbers
      exact ⟨after, rfl, isNumbered_of_validate isChart isValid, numbers⟩

end Chart

end Statechart
