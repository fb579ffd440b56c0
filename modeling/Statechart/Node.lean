import Statechart.Entries

/-!
# Handles of nodes, and sets and maps of them

The nodes of a chart are numbered in the order in which they were added, the
root first.  Sets and maps of nodes keep their elements in increasing order,
so equal sets are equal as values and every walk over a set has one order.
-/

namespace Statechart

abbrev NodeId :=
  Nat

abbrev TransitionId :=
  Nat

def rootId : NodeId :=
  0

/-- Puts a number into an increasing list unless it is there. -/
def insertIncreasing (node : NodeId) : List NodeId → List NodeId
  | [] => [node]
  | other :: rest =>
    if node < other then node :: other :: rest
    else if node = other then other :: rest
    else other :: insertIncreasing node rest

theorem mem_insertIncreasing {node other : NodeId} {members : List NodeId} :
    other ∈ insertIncreasing node members ↔ other = node ∨ other ∈ members := by
  induction members with
  | nil => simp [insertIncreasing]
  | cons first rest hypothesis =>
    unfold insertIncreasing
    split
    · simp
    · split
      · next same =>
        subst same
        simp
      · simp only [List.mem_cons, hypothesis]
        constructor
        · rintro (isFirst | isNode | inRest)
          · exact .inr (.inl isFirst)
          · exact .inl isNode
          · exact .inr (.inr inRest)
        · rintro (isNode | isFirst | inRest)
          · exact .inr (.inl isNode)
          · exact .inl isFirst
          · exact .inr (.inr inRest)

theorem insertIncreasing_increasing {node : NodeId} {members : List NodeId}
    (increasing : members.Pairwise (· < ·)) : (insertIncreasing node members).Pairwise (· < ·) := by
  induction members with
  | nil => simp [insertIncreasing]
  | cons first rest hypothesis =>
    obtain ⟨aboveFirst, restIncreasing⟩ := List.pairwise_cons.1 increasing
    unfold insertIncreasing
    split
    · next below =>
      refine List.pairwise_cons.2 ⟨?_, increasing⟩
      intro other member
      rcases List.mem_cons.1 member with isFirst | inRest
      · subst isFirst
        exact below
      · exact Nat.lt_trans below (aboveFirst other inRest)
    · split
      · exact increasing
      · next notBelow different =>
        refine List.pairwise_cons.2 ⟨?_, hypothesis restIncreasing⟩
        intro other member
        rcases mem_insertIncreasing.1 member with isNode | inRest
        · subst isNode
          exact Nat.lt_of_le_of_ne (Nat.le_of_not_lt notBelow) (Ne.symm different)
        · exact aboveFirst other inRest

/-- A finite set of nodes. -/
structure NodeSet where
  members : List NodeId
  increasing : members.Pairwise (· < ·)
deriving DecidableEq

namespace NodeSet

instance : Membership NodeId NodeSet :=
  ⟨fun set node => node ∈ set.members⟩

instance (node : NodeId) (set : NodeSet) : Decidable (node ∈ set) :=
  inferInstanceAs (Decidable (node ∈ set.members))

def empty : NodeSet :=
  ⟨[], .nil⟩

instance : EmptyCollection NodeSet :=
  ⟨empty⟩

instance : Inhabited NodeSet :=
  ⟨empty⟩

def insert (set : NodeSet) (node : NodeId) : NodeSet :=
  ⟨insertIncreasing node set.members, insertIncreasing_increasing set.increasing⟩

/-- A set with the nodes of a list besides its own. -/
def insertAll (set : NodeSet) (nodes : List NodeId) : NodeSet :=
  nodes.foldl insert set

def ofList (nodes : List NodeId) : NodeSet :=
  empty.insertAll nodes

def filter (keep : NodeId → Bool) (set : NodeSet) : NodeSet :=
  ⟨set.members.filter keep, set.increasing.filter keep⟩

def erase (set : NodeSet) (node : NodeId) : NodeSet :=
  set.filter (· != node)

def union (left right : NodeSet) : NodeSet :=
  left.insertAll right.members

def toList (set : NodeSet) : List NodeId :=
  set.members

def contains (set : NodeSet) (node : NodeId) : Bool :=
  decide (node ∈ set)

def isEmpty (set : NodeSet) : Bool :=
  set.members.isEmpty

theorem mem_insert {set : NodeSet} {node other : NodeId} :
    other ∈ set.insert node ↔ other = node ∨ other ∈ set :=
  mem_insertIncreasing

theorem mem_filter {keep : NodeId → Bool} {set : NodeSet} {node : NodeId} :
    node ∈ set.filter keep ↔ node ∈ set ∧ keep node = true :=
  List.mem_filter

theorem mem_toList {set : NodeSet} {node : NodeId} : node ∈ set.toList ↔ node ∈ set :=
  Iff.rfl

theorem not_mem_empty (node : NodeId) : ¬ node ∈ (∅ : NodeSet) :=
  List.not_mem_nil

end NodeSet

theorem mem_keys_insert {Value : Type} {node other : NodeId} {value : Value}
    {entries : List (NodeId × Value)} :
    other ∈ Entries.keys (Entries.insert node value entries) ↔
      other = node ∨ other ∈ Entries.keys entries := by
  induction entries with
  | nil => simp [Entries.insert, Entries.keys]
  | cons entry rest hypothesis =>
    obtain ⟨first, current⟩ := entry
    simp only [Entries.keys] at hypothesis
    unfold Entries.insert
    split
    · simp [Entries.keys]
    · split
      · next same =>
        subst same
        simp [Entries.keys]
      · simp only [Entries.keys, List.map_cons, List.mem_cons, hypothesis]
        constructor
        · rintro (isFirst | isNode | inRest)
          · exact .inr (.inl isFirst)
          · exact .inl isNode
          · exact .inr (.inr inRest)
        · rintro (isNode | isFirst | inRest)
          · exact .inr (.inl isNode)
          · exact .inl isFirst
          · exact .inr (.inr inRest)

theorem insert_keys_increasing {Value : Type} {node : NodeId} {value : Value}
    {entries : List (NodeId × Value)} (increasing : (Entries.keys entries).Pairwise (· < ·)) :
    (Entries.keys (Entries.insert node value entries)).Pairwise (· < ·) := by
  induction entries with
  | nil => simp [Entries.insert, Entries.keys]
  | cons entry rest hypothesis =>
    obtain ⟨first, current⟩ := entry
    obtain ⟨aboveFirst, restIncreasing⟩ := List.pairwise_cons.1 increasing
    unfold Entries.insert
    split
    · next below =>
      refine List.pairwise_cons.2 ⟨?_, increasing⟩
      intro other member
      rcases List.mem_cons.1 member with isFirst | inRest
      · subst isFirst
        exact below
      · exact Nat.lt_trans below (aboveFirst other inRest)
    · split
      · next same =>
        subst same
        exact increasing
      · next notBelow different =>
        refine List.pairwise_cons.2 ⟨?_, hypothesis restIncreasing⟩
        intro other member
        rcases mem_keys_insert.1 member with isNode | inRest
        · subst isNode
          exact Nat.lt_of_le_of_ne (Nat.le_of_not_lt notBelow) (Ne.symm different)
        · exact aboveFirst other inRest

/-- A finite map from nodes. -/
structure NodeMap (Value : Type) where
  entries : List (NodeId × Value)
  increasing : (Entries.keys entries).Pairwise (· < ·)

namespace NodeMap

variable {Value : Type}

def empty : NodeMap Value :=
  ⟨[], .nil⟩

instance : EmptyCollection (NodeMap Value) :=
  ⟨empty⟩

instance : Inhabited (NodeMap Value) :=
  ⟨empty⟩

def find? (map : NodeMap Value) (node : NodeId) : Option Value :=
  Entries.find? node map.entries

def contains (map : NodeMap Value) (node : NodeId) : Bool :=
  Entries.contains node map.entries

/-- A map with a value at a node, in place of the value the node had. -/
def insert (map : NodeMap Value) (node : NodeId) (value : Value) : NodeMap Value :=
  ⟨Entries.insert node value map.entries, insert_keys_increasing map.increasing⟩

def erase (map : NodeMap Value) (node : NodeId) : NodeMap Value :=
  ⟨Entries.erase node map.entries,
    map.increasing.sublist (List.filter_sublist.map Prod.fst)⟩

def keys (map : NodeMap Value) : List NodeId :=
  Entries.keys map.entries

def size (map : NodeMap Value) : Nat :=
  map.entries.length

/-- The entries in increasing order of their nodes. -/
def toList (map : NodeMap Value) : List (NodeId × Value) :=
  map.entries

theorem find?_insert_self (map : NodeMap Value) (node : NodeId) (value : Value) :
    (map.insert node value).find? node = some value :=
  Entries.find?_insert_self node value map.entries

theorem find?_insert_of_ne (map : NodeMap Value) {node other : NodeId} (different : other ≠ node)
    (value : Value) : (map.insert node value).find? other = map.find? other :=
  Entries.find?_insert_of_ne different value map.entries

end NodeMap

end Statechart
