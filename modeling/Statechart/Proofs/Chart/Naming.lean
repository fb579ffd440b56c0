import Mathlib.Data.List.Nodup
import Statechart.Proofs.Chart.Building
import Statechart.Proofs.Chart.EffectiveIds
import Statechart.Proofs.Stages

/-!
# Handing out ids

Validation gives every node its effective id, and looking up an id yields the
node that bears it.  The walk that hands out ids reaches every node of a tree
once, and each owner before its members.  Naming fails exactly if two nodes have
the same effective id.
-/

namespace Statechart

/-- A node without the ids that validation gives. -/
def Node.unnamed (node : Node) : Node :=
  { node with clientId := "", id := "" }

namespace Chart

variable {chart before after : Chart}

/-! ## Walks -/

section Walk

variable {steps : NodeId → List NodeId} {node member next : NodeId} {limit higher : Nat}

theorem mem_walk_self : node ∈ walk steps limit node := by
  cases limit with
  | zero => exact List.mem_singleton.2 rfl
  | succ limit => exact List.mem_cons_self

theorem mem_walk_of_step (first : next ∈ steps node) (reached : member ∈ walk steps limit next) :
    member ∈ walk steps (limit + 1) node :=
  List.mem_cons_of_mem _ (List.mem_flatMap.2 ⟨next, first, reached⟩)

theorem mem_walk_succ (reached : member ∈ walk steps limit node) (last : next ∈ steps member) :
    next ∈ walk steps (limit + 1) node := by
  induction limit generalizing node with
  | zero =>
      have same : member = node := List.mem_singleton.1 reached
      exact mem_walk_of_step (same ▸ last) mem_walk_self
  | succ limit ih =>
      rcases List.mem_cons.1 reached with same | later
      · exact mem_walk_of_step (same ▸ last) mem_walk_self
      · obtain ⟨second, first, reachedSecond⟩ := List.mem_flatMap.1 later
        exact mem_walk_of_step first (ih reachedSecond)

theorem mem_walk_mono (reached : member ∈ walk steps limit node) (lower : limit ≤ higher) :
    member ∈ walk steps higher node := by
  induction limit generalizing node higher with
  | zero =>
      have same : member = node := List.mem_singleton.1 reached
      exact same ▸ mem_walk_self
  | succ limit ih =>
      cases higher with
      | zero => exact absurd lower (Nat.not_succ_le_zero limit)
      | succ higher =>
          rcases List.mem_cons.1 reached with same | later
          · exact same ▸ mem_walk_self
          · obtain ⟨second, first, reachedSecond⟩ := List.mem_flatMap.1 later
            exact mem_walk_of_step first (ih reachedSecond (Nat.le_of_succ_le_succ lower))

/-- A place in joined lists is a place in one of them. -/
theorem exists_of_flatMap_eq {list : List NodeId} {parts : NodeId → List NodeId}
    {earlier later : List NodeId} (split : list.flatMap parts = earlier ++ member :: later) :
    ∃ origin ∈ list, ∃ front back, parts origin = front ++ member :: back ∧
      ∀ other ∈ front, other ∈ earlier := by
  induction list generalizing earlier with
  | nil => simp at split
  | cons origin rest ih =>
      rw [List.flatMap_cons] at split
      rcases List.append_eq_append_iff.1 split with
        ⟨between, isEarlier, isRest⟩ | ⟨between, isPart, isRest⟩
      · obtain ⟨other, isOther, front, back, isSplit, known⟩ := ih isRest
        refine ⟨other, List.mem_cons_of_mem _ isOther, front, back, isSplit, fun node isFront => ?_⟩
        exact isEarlier ▸ List.mem_append_right _ (known node isFront)
      · cases between with
        | nil =>
            obtain ⟨other, isOther, front, back, isSplit, known⟩ :=
              ih (show rest.flatMap parts = [] ++ member :: later from isRest.symm)
            refine ⟨other, List.mem_cons_of_mem _ isOther, front, back, isSplit, ?_⟩
            intro node isFront
            exact absurd (known node isFront) List.not_mem_nil
        | cons first between =>
            rw [List.cons_append, List.cons.injEq] at isRest
            obtain ⟨rfl, -⟩ := isRest
            exact ⟨origin, List.mem_cons_self, earlier, between, isPart, fun _ isFront => isFront⟩

/-- A node that a walk reaches follows one from which a step leads to it. -/
theorem eq_or_exists_step_of_walk_eq {earlier later : List NodeId}
    (split : walk steps limit node = earlier ++ member :: later) :
    member = node ∨ ∃ origin ∈ earlier, member ∈ steps origin := by
  induction limit generalizing node earlier later with
  | zero =>
      have isMember : member ∈ [node] := by
        rw [show [node] = walk steps 0 node from rfl, split]
        exact List.mem_append_right _ List.mem_cons_self
      exact .inl (List.mem_singleton.1 isMember)
  | succ limit ih =>
      rw [walk] at split
      cases earlier with
      | nil =>
          rw [List.nil_append, List.cons.injEq] at split
          exact .inl split.1.symm
      | cons first earlier =>
          rw [List.cons_append, List.cons.injEq] at split
          obtain ⟨rfl, joined⟩ := split
          obtain ⟨origin, isStep, front, back, isSplit, known⟩ := exists_of_flatMap_eq joined
          rcases ih isSplit with rfl | ⟨last, isFront, reached⟩
          · exact .inr ⟨node, List.mem_cons_self, isStep⟩
          · exact .inr ⟨last, List.mem_cons_of_mem _ (known last isFront), reached⟩

end Walk

namespace IsPlanted

variable (tree : chart.IsPlanted)
include tree

/-- The walk that hands out ids reaches every node. -/
theorem mem_namingWalk {id : NodeId} (inside : id < chart.nodeCount) :
    id ∈ chart.namingWalk := by
  suffices reached : id ∈ walk (fun node => (chart.membersOf node).reverse) id rootId from
    mem_walk_mono reached (Nat.le_of_lt inside)
  induction id using Nat.strongRecOn with
  | ind id ih =>
      by_cases isRoot : id = rootId
      · exact isRoot ▸ mem_walk_self
      · obtain ⟨parent, isParent, below⟩ := tree.exists_parent id isRoot inside
        have reached := mem_walk_succ (ih parent below (Nat.lt_trans below inside))
          (List.mem_reverse.2 (tree.mem_membersOf.2 isParent))
        exact mem_walk_mono reached below

section Downward

variable {steps : NodeId → List NodeId}
  (parents : ∀ node, ∀ next ∈ steps node, chart.parent next = some node)
include parents

theorem isWithin_of_mem_walk {limit : Nat} {node member : NodeId}
    (reached : member ∈ walk steps limit node) : chart.isWithin member node = true := by
  induction limit generalizing node with
  | zero => exact List.mem_singleton.1 reached ▸ isWithin_refl _
  | succ limit ih =>
      rcases List.mem_cons.1 reached with same | later
      · exact same ▸ isWithin_refl _
      · obtain ⟨next, isStep, reachedNext⟩ := List.mem_flatMap.1 later
        exact tree.isWithin_trans (ih reachedNext)
          (isWithin_of_isDescendant (tree.isDescendant_of_parent (parents node next isStep)))

/-- A walk from parents to members reaches no node twice. -/
theorem nodup_walk (distinct : ∀ node, (steps node).Nodup) (limit : Nat) (node : NodeId) :
    (walk steps limit node).Nodup := by
  induction limit generalizing node with
  | zero => exact List.nodup_singleton node
  | succ limit ih =>
      refine List.nodup_cons.2 ⟨?_, List.nodup_flatMap.2 ⟨fun next _ => ih next, ?_⟩⟩
      · intro later
        obtain ⟨next, isStep, reached⟩ := List.mem_flatMap.1 later
        have above := tree.le_of_isWithin (tree.isWithin_of_mem_walk parents reached)
        exact Nat.not_le_of_lt (tree.parent_lt (parents node next isStep)) above
      · refine List.Pairwise.imp_of_mem ?_ (distinct node)
        intro left right isLeft isRight different member inLeft inRight
        exact different (tree.eq_of_siblings_above (parents node left isLeft)
          (parents node right isRight) (tree.isWithin_of_mem_walk parents inLeft)
          (tree.isWithin_of_mem_walk parents inRight))

end Downward

/-- The walk that hands out ids reaches no node twice. -/
theorem nodup_namingWalk : chart.namingWalk.Nodup :=
  tree.nodup_walk (fun _ _ isStep => tree.mem_membersOf.1 (List.mem_reverse.1 isStep))
    (fun node => List.nodup_reverse.2 (tree.nodup_membersOf node)) chart.nodeCount rootId

/-- The members of all that is walked are all nodes but the root. -/
theorem mem_namedNodes {id : NodeId} :
    id ∈ chart.namingWalk.flatMap chart.membersOf ↔ chart.IsProper id := by
  rw [List.mem_flatMap]
  constructor
  · rintro ⟨owner, -, isMember⟩
    have isParent := tree.mem_membersOf.1 isMember
    exact ⟨tree.ne_root_of_parent isParent, lt_nodeCount_of_parent isParent⟩
  · rintro ⟨notRoot, inside⟩
    obtain ⟨owner, isParent, below⟩ := tree.exists_parent id notRoot inside
    exact ⟨owner, tree.mem_namingWalk (Nat.lt_trans below inside), tree.mem_membersOf.2 isParent⟩

end IsPlanted

/-! ## Renaming -/

/-- Two charts that differ only in the ids that validation gives. -/
structure Renames (before after : Chart) : Prop where
  nodeCount_eq : after.nodeCount = before.nodeCount
  unnamed_eq : ∀ id, (after.node id).unnamed = (before.node id).unnamed
  transitions_eq : after.transitions = before.transitions
  name_eq : after.name = before.name
  checksum_eq : after.checksum = before.checksum
  isValidated_eq : after.isValidated = before.isValidated

namespace Renames

theorem trans {first second third : Chart} (left : Renames first second)
    (right : Renames second third) : Renames first third where
  nodeCount_eq := right.nodeCount_eq.trans left.nodeCount_eq
  unnamed_eq := fun id => (right.unnamed_eq id).trans (left.unnamed_eq id)
  transitions_eq := right.transitions_eq.trans left.transitions_eq
  name_eq := right.name_eq.trans left.name_eq
  checksum_eq := right.checksum_eq.trans left.checksum_eq
  isValidated_eq := right.isValidated_eq.trans left.isValidated_eq

/-- What does not look at the ids of a node is as it was. -/
theorem part_eq {Part : Type} (renames : Renames before after) (part : Node → Part)
    (blind : ∀ node, part node.unnamed = part node) (id : NodeId) :
    part (after.node id) = part (before.node id) := by
  rw [← blind, renames.unnamed_eq, blind]

theorem sameTree (renames : Renames before after) : SameTree before after :=
  ⟨renames.nodeCount_eq, renames.part_eq Node.position fun _ => rfl⟩

theorem declaredId_eq (renames : Renames before after) (id : NodeId) :
    (after.node id).declaredId = (before.node id).declaredId :=
  renames.part_eq Node.declaredId (fun _ => rfl) id

theorem effectiveId_eq (renames : Renames before after) :
    after.effectiveId = before.effectiveId :=
  renames.sameTree.effectiveId_eq renames.name_eq renames.declaredId_eq

theorem isOwned (renames : Renames before after) (owned : before.IsOwned) : after.IsOwned :=
  owned.congr (renames.part_eq Node.references fun _ => rfl) renames.transitions_eq

theorem isBuilt (renames : Renames before after) (built : before.IsBuilt) : after.IsBuilt where
  tree := renames.sameTree.isTree built.tree
  owned := renames.isOwned built.owned
  unlinked := by
    intro transition
    rw [Chart.transition, renames.transitions_eq]
    exact built.unlinked transition

end Renames

/-- A chart with the ids of a node replaced. -/
def rename (chart : Chart) (node : NodeId) (name : String) : Chart :=
  chart.modifyNode node (fun owner => { owner with clientId := name, id := name })

theorem renames_rename (node : NodeId) (name : String) :
    Renames chart (chart.rename node name) where
  nodeCount_eq := nodeCount_modifyNode node _
  unnamed_eq := node_modifyNode_keeps Node.unnamed (fun _ => by rfl) node
  transitions_eq := rfl
  name_eq := rfl
  checksum_eq := rfl
  isValidated_eq := rfl

/-- A chart in which a node has an id and is found by it. -/
def withName (chart : Chart) (node : NodeId) (name : String) : Chart :=
  { chart.rename node name with ids := Entries.insert name node chart.ids }

theorem renames_withName (node : NodeId) (name : String) :
    Renames chart (chart.withName node name) :=
  (renames_rename node name).trans ⟨rfl, fun _ => rfl, rfl, rfl, rfl, rfl⟩

theorem node_withName_self {node : NodeId} (inside : node < chart.nodeCount) (name : String) :
    (chart.withName node name).node node = { chart.node node with clientId := name, id := name } :=
  node_modifyNode_self inside _

theorem node_withName_of_ne {node other : NodeId} (different : other ≠ node) (name : String) :
    (chart.withName node name).node other = chart.node other :=
  node_modifyNode_of_ne different _

theorem lookup_withName_self (node : NodeId) (name : String) :
    (chart.withName node name).lookup name = some node :=
  Entries.find?_insert_self name node chart.ids

theorem lookup_withName_of_ne (node : NodeId) {name other : String} (different : other ≠ name) :
    (chart.withName node name).lookup other = chart.lookup other :=
  Entries.find?_insert_of_ne different node chart.ids

theorem nameNode_eq (node : NodeId) (madeUp : String) :
    chart.nameNode (node, madeUp) =
      let name := (chart.node node).declaredId.getD madeUp
      if (chart.lookup name).isSome then
        .error ⟨chart.withName node name, .duplicateId name⟩
      else
        .ok (chart.withName node name) :=
  rfl

/-! ## Naming -/

/-- The record of ids once the listed nodes have been named. -/
def recordIds (chart : Chart) (named : List NodeId) : List (String × NodeId) :=
  named.foldl (fun ids id => Entries.insert (chart.effectiveId id) id ids) []

/-- A chart in the middle of naming: the listed nodes have been named. -/
structure IsNaming (start : Chart) (named : List NodeId) (chart : Chart) : Prop where
  renames : Renames start chart
  proper : ∀ id ∈ named, start.IsProper id
  clientId_eq : ∀ id, id = rootId ∨ id ∈ named → (chart.node id).clientId = start.effectiveId id
  idOf_root : chart.idOf rootId = start.effectiveId rootId
  idOf_eq : ∀ id ∈ named, chart.idOf id = start.effectiveId id
  ids_eq : chart.ids = start.recordIds named
  lookup_iff : ∀ name id, chart.lookup name = some id ↔ id ∈ named ∧ start.effectiveId id = name

/-- Naming fails because two nodes would have the same id. -/
def IsMisnamed (start : Chart) (rejection : Rejection) : Prop :=
  ¬ start.HasDistinctIds ∧ Renames start rejection.chart

namespace IsNaming

variable {start : Chart} {named : List NodeId} {node owner : NodeId}

theorem withName (naming : IsNaming start named chart) (proper : start.IsProper node)
    (fresh : chart.lookup (start.effectiveId node) = none) :
    IsNaming start (named ++ [node]) (chart.withName node (start.effectiveId node)) := by
  have inside : node < chart.nodeCount := naming.renames.nodeCount_eq ▸ proper.2
  refine ⟨naming.renames.trans (renames_withName node _), ?_, ?_, ?_, ?_, ?_, ?_⟩
  · intro id member
    rcases List.mem_append.1 member with isOld | isAdded
    · exact naming.proper id isOld
    · exact List.mem_singleton.1 isAdded ▸ proper
  · intro id known
    by_cases same : id = node
    · rw [same, node_withName_self inside]
    · rw [node_withName_of_ne same]
      refine naming.clientId_eq id (known.imp_right fun member => ?_)
      exact (List.mem_append.1 member).resolve_right fun isAdded =>
        same (List.mem_singleton.1 isAdded)
  · rw [idOf, node_withName_of_ne proper.1.symm]
    exact naming.idOf_root
  · intro id member
    by_cases same : id = node
    · rw [same, idOf, node_withName_self inside]
    · rw [idOf, node_withName_of_ne same]
      refine naming.idOf_eq id ((List.mem_append.1 member).resolve_right fun isAdded => ?_)
      exact same (List.mem_singleton.1 isAdded)
  · rw [recordIds, List.foldl_append, List.foldl_cons, List.foldl_nil, ← recordIds,
      ← naming.ids_eq]
    rfl
  · intro name id
    rw [List.mem_append, List.mem_singleton]
    by_cases same : name = start.effectiveId node
    · rw [same, lookup_withName_self, Option.some.injEq]
      constructor
      · rintro rfl
        exact ⟨.inr rfl, rfl⟩
      · rintro ⟨isOld | isAdded, sameId⟩
        · rw [(naming.lookup_iff _ id).2 ⟨isOld, sameId⟩] at fresh
          cases fresh
        · exact isAdded.symm
    · rw [lookup_withName_of_ne node same, naming.lookup_iff]
      refine and_congr_left fun isName => (or_iff_left ?_).symm
      rintro rfl
      exact same isName.symm

theorem nameNode (naming : IsNaming start named chart) (proper : start.IsProper node)
    (isNew : node ∉ named) {madeUp : String}
    (isName : (start.node node).declaredId.getD madeUp = start.effectiveId node) :
    Yields (IsNaming start (named ++ [node])) (IsMisnamed start)
      (chart.nameNode (node, madeUp)) := by
  rw [nameNode_eq, naming.renames.declaredId_eq, isName]
  dsimp only
  split
  · next taken =>
      refine ⟨fun distinct => ?_, naming.renames.trans (renames_withName node _)⟩
      obtain ⟨other, found⟩ := Option.isSome_iff_exists.1 taken
      obtain ⟨isOld, sameId⟩ := (naming.lookup_iff _ other).1 found
      have same := distinct other node (naming.proper other isOld) proper sameId
      exact isNew (same ▸ isOld)
  · next free =>
      exact naming.withName proper (Option.not_isSome_iff_eq_none.1 free)

end IsNaming

theorem map_fst_madeUpIds (owner : NodeId) :
    (chart.madeUpIds owner).map Prod.fst = chart.membersOf owner := by
  rw [madeUpIds, List.map_fst_zip]
  simp

/-- What is made up for a member tells its kind and its number. -/
theorem IsPlanted.snd_of_mem_madeUpIds (tree : chart.IsPlanted) {owner : NodeId}
    {named : NodeId × String} (listed : named ∈ chart.madeUpIds owner) :
    named.2 = s!"{(chart.node owner).clientId}:{kindWord (chart.node named.1)}{
      chart.numberOf owner named.1}" := by
  obtain ⟨index, bound, rfl⟩ := List.mem_iff_getElem.1 listed
  have inside : index < (chart.membersOf owner).length := by
    rw [← map_fst_madeUpIds owner, List.length_map]
    exact bound
  have place := (tree.nodup_membersOf owner).idxOf_getElem index inside
  simp only [madeUpIds, List.getElem_zip, List.getElem_mapIdx, List.getElem_map, numberOf, place,
    List.map_take]

namespace IsNaming

variable {start : Chart} {named : List NodeId} {owner : NodeId}

/-- What is made up for the members of a named owner is their effective id. -/
theorem getD_of_mem_madeUpIds (naming : IsNaming start named chart) (tree : start.IsPlanted)
    (known : owner = rootId ∨ owner ∈ named) {entry : NodeId × String}
    (listed : entry ∈ chart.madeUpIds owner) :
    (start.node entry.1).declaredId.getD entry.2 = start.effectiveId entry.1 := by
  have same := naming.renames.sameTree
  have isMember : entry.1 ∈ chart.membersOf owner :=
    map_fst_madeUpIds owner ▸ List.mem_map_of_mem listed
  rw [same.membersOf_eq, tree.mem_membersOf] at isMember
  rw [tree.effectiveId_of_parent isMember,
    (same.isPlanted tree).snd_of_mem_madeUpIds listed, naming.clientId_eq owner known,
    kindWord_of_position (same.position_eq entry.1), same.numberOf_eq]

theorem nameMembers (naming : IsNaming start named chart) (tree : start.IsPlanted)
    (known : owner = rootId ∨ owner ∈ named)
    (fresh : ∀ member, start.parent member = some owner → member ∉ named) :
    Yields (IsNaming start (named ++ start.membersOf owner)) (IsMisnamed start)
      (chart.nameMembers owner) := by
  have listed : (chart.madeUpIds owner).map Prod.fst = start.membersOf owner := by
    rw [map_fst_madeUpIds, naming.renames.sameTree.membersOf_eq]
  rw [← listed]
  -- The invariant says that the members before this one have been named.
  refine foldlM_yields (fun earlier state =>
    IsNaming start (named ++ earlier.map Prod.fst) state) ?_ ?_
  · intro earlier entry later state split stateNaming
    have isEntry : entry ∈ chart.madeUpIds owner :=
      split ▸ List.mem_append_right _ List.mem_cons_self
    have isParent : start.parent entry.1 = some owner := by
      rw [← tree.mem_membersOf, ← listed]
      exact List.mem_map_of_mem isEntry
    have isNew : entry.1 ∉ named ++ earlier.map Prod.fst := by
      have distinct := tree.nodup_membersOf owner
      rw [← listed, ← split, List.map_append, List.map_cons] at distinct
      rw [List.mem_append]
      rintro (isNamed | isEarlier)
      · exact fresh entry.1 isParent isNamed
      · exact (List.nodup_append.1 distinct).2.2 _ isEarlier _ List.mem_cons_self rfl
    rw [List.map_append, ← List.append_assoc]
    exact stateNaming.nameNode ⟨tree.ne_root_of_parent isParent, lt_nodeCount_of_parent isParent⟩
      isNew (naming.getD_of_mem_madeUpIds tree known isEntry)
  · simpa using naming

end IsNaming

/-- Looking up an id yields the node with this id, if there is one. -/
def FindsById (chart : Chart) : Prop :=
  ∀ name id, chart.lookup name = some id ↔ chart.IsProper id ∧ chart.idOf id = name

/-- Every node but the root bears its effective id and is found by it. -/
structure BearsIds (chart : Chart) : Prop where
  idOf_eq : ∀ id, chart.IsProper id → chart.idOf id = chart.effectiveId id
  finds : chart.FindsById

theorem FindsById.congr (finds : before.FindsById) (sameTree : SameTree before after)
    (ids_eq : after.ids = before.ids) (idOf_eq : ∀ id, after.idOf id = before.idOf id) :
    after.FindsById := by
  intro name id
  rw [lookup, ids_eq, IsProper, sameTree.nodeCount_eq, idOf_eq]
  exact finds name id

/-- Different nodes have different ids. -/
theorem FindsById.eq_of_idOf_eq (finds : chart.FindsById) {a b : NodeId}
    (properA : chart.IsProper a) (properB : chart.IsProper b)
    (same : chart.idOf a = chart.idOf b) : a = b := by
  have foundA := (finds _ a).2 ⟨properA, same⟩
  rw [(finds _ b).2 ⟨properB, rfl⟩] at foundA
  exact (Option.some.inj foundA).symm

/-- The words of a text lead to the nodes that have them as ids. -/
theorem FindsById.findTargets_eq_ok_iff (finds : chart.FindsById) {next : String}
    {targets : List NodeId} :
    chart.findTargets next = .ok targets ↔
      (∀ target ∈ targets, chart.IsProper target) ∧ targets.map chart.idOf = Text.words next := by
  refine mapM_eq_ok_iff fun word target => ?_
  rw [← finds]
  cases chart.lookup word <;> simp

theorem BearsIds.hasDistinctIds (bears : chart.BearsIds) : chart.HasDistinctIds := by
  intro a b properA properB same
  rw [← bears.idOf_eq a properA, ← bears.idOf_eq b properB] at same
  exact bears.finds.eq_of_idOf_eq properA properB same

/-- Naming names the members of all nodes, or finds two nodes with the same id. -/
theorem assignIds_names (tree : chart.IsPlanted) :
    Yields (IsNaming chart (chart.namingWalk.flatMap chart.membersOf)) (IsMisnamed chart)
      chart.assignIds := by
  let start : Chart := { chart.rename rootId (chart.name.getD "scxml") with ids := [] }
  have renames : Renames chart start :=
    (renames_rename rootId _).trans ⟨rfl, fun _ => rfl, rfl, rfl, rfl, rfl⟩
  have naming : IsNaming chart [] start := by
    refine ⟨renames, ?_, ?_, ?_, ?_, rfl, ?_⟩
    · exact fun _ member => absurd member List.not_mem_nil
    · rintro id (rfl | member)
      · rw [tree.effectiveId_root]
        exact congrArg Node.clientId (node_modifyNode_self tree.nonempty _)
      · exact absurd member List.not_mem_nil
    · rw [tree.effectiveId_root]
      exact congrArg Node.id (node_modifyNode_self tree.nonempty _)
    · exact fun _ member => absurd member List.not_mem_nil
    · exact fun name id => iff_of_false (Option.some_ne_none id ·.symm) fun named =>
        absurd named.1 List.not_mem_nil
  have walks : start.namingWalk = chart.namingWalk := by
    simp only [namingWalk, renames.sameTree.membersOf_eq, renames.nodeCount_eq]
  rw [← walks]
  refine foldlM_yields (fun earlier => IsNaming chart (earlier.flatMap chart.membersOf)) ?_ naming
  intro earlier owner later state split stateNaming
  rw [walks] at split
  have known : owner = rootId ∨ owner ∈ earlier.flatMap chart.membersOf := by
    refine (eq_or_exists_step_of_walk_eq split.symm).imp_right ?_
    rintro ⟨origin, isEarlier, isStep⟩
    exact List.mem_flatMap.2 ⟨origin, isEarlier, List.mem_reverse.1 isStep⟩
  have fresh : ∀ member, chart.parent member = some owner →
      member ∉ earlier.flatMap chart.membersOf := by
    intro member isParent isNamed
    obtain ⟨origin, isEarlier, isMember⟩ := List.mem_flatMap.1 isNamed
    have isOrigin := tree.mem_membersOf.1 isMember
    rw [isParent, Option.some.injEq] at isOrigin
    have distinct := tree.nodup_namingWalk
    rw [← split] at distinct
    exact (List.nodup_append.1 distinct).2.2 origin isEarlier owner List.mem_cons_self
      isOrigin.symm
  rw [List.flatMap_append, List.flatMap_singleton]
  exact stateNaming.nameMembers tree known fresh

/-- Naming gives every node its effective id, or finds two nodes with the same one. -/
theorem assignIds_yields (tree : chart.IsPlanted) :
    Yields (fun after => Renames chart after ∧ after.BearsIds) (IsMisnamed chart)
      chart.assignIds := by
  refine (assignIds_names tree).imp (fun after afterNaming => ?_) fun _ misnamed => misnamed
  have sameIds := afterNaming.renames.effectiveId_eq
  have properIff : ∀ id, after.IsProper id ↔ id ∈ chart.namingWalk.flatMap chart.membersOf := by
    intro id
    rw [tree.mem_namedNodes, IsProper, IsProper, afterNaming.renames.nodeCount_eq]
  have bears : ∀ id, after.IsProper id → after.idOf id = chart.effectiveId id :=
    fun id proper => afterNaming.idOf_eq id ((properIff id).1 proper)
  refine ⟨afterNaming.renames, fun id proper => sameIds ▸ bears id proper, fun name id => ?_⟩
  rw [afterNaming.lookup_iff, ← properIff]
  exact and_congr_right fun proper => by rw [bears id proper]

end Chart

end Statechart
