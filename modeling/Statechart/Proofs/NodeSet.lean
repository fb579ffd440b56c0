import Statechart.Node

/-!
# Sets and maps of nodes

Sets and maps of nodes are increasing lists.  This file says what belongs to those
that the operations build, so that later proofs speak of members and entries only,
and that their members and entries determine them.
-/

namespace Statechart

namespace NodeSet

@[simp]
theorem contains_iff {set : NodeSet} {node : NodeId} :
    set.contains node = true ↔ node ∈ set := by
  simp [contains]

@[simp]
theorem contains_eq_false_iff {set : NodeSet} {node : NodeId} :
    set.contains node = false ↔ ¬ node ∈ set := by
  simp [contains]

theorem nodup_toList (set : NodeSet) : set.toList.Nodup :=
  set.increasing.imp Nat.ne_of_lt

theorem mem_insertAll {set : NodeSet} {nodes : List NodeId} {node : NodeId} :
    node ∈ set.insertAll nodes ↔ node ∈ set ∨ node ∈ nodes := by
  induction nodes generalizing set with
  | nil => simp [insertAll]
  | cons first rest ih =>
      have step : set.insertAll (first :: rest) = (set.insert first).insertAll rest := rfl
      rw [step, ih, mem_insert, List.mem_cons, or_assoc, or_left_comm]

theorem mem_erase {set : NodeSet} {node other : NodeId} :
    other ∈ set.erase node ↔ other ∈ set ∧ other ≠ node := by
  simp [erase, mem_filter]

@[ext]
theorem ext {left right : NodeSet} (same : ∀ node, node ∈ left ↔ node ∈ right) :
    left = right := by
  have perm : left.members.Perm right.members :=
    (List.perm_ext_iff_of_nodup left.nodup_toList right.nodup_toList).2 same
  have equal := perm.eq_of_pairwise
    (fun a b _ _ below above => absurd below (Nat.lt_asymm above)) left.increasing right.increasing
  cases left
  cases right
  cases equal
  rfl

theorem mem_ofList {nodes : List NodeId} {node : NodeId} : node ∈ ofList nodes ↔ node ∈ nodes :=
  mem_insertAll.trans (or_iff_right (not_mem_empty node))

end NodeSet

namespace Entries

variable {Key Value : Type} [LT Key] [DecidableLT Key] [DecidableEq Key]

omit [LT Key] [DecidableLT Key] in
theorem contains_iff {key : Key} {entries : List (Key × Value)} :
    contains key entries = true ↔ key ∈ keys entries := by
  induction entries with
  | nil => simp [contains, find?, keys]
  | cons entry rest ih =>
      obtain ⟨other, current⟩ := entry
      simp only [contains, find?, keys, List.map_cons, List.mem_cons] at ih ⊢
      split
      · next same => simp [same]
      · next different => simp [ih, different]

omit [LT Key] [DecidableLT Key] in
/-- Where keys are distinct, looking up finds just the entries. -/
theorem find?_eq_some_iff {entries : List (Key × Value)} (distinct : (keys entries).Nodup)
    {key : Key} {value : Value} : find? key entries = some value ↔ (key, value) ∈ entries := by
  induction entries with
  | nil => simp [find?]
  | cons entry rest ih =>
      obtain ⟨other, current⟩ := entry
      rw [keys, List.map_cons, List.nodup_cons] at distinct
      rw [find?, List.mem_cons, Prod.mk.injEq]
      split
      · next same =>
          have notLater : ¬ (key, value) ∈ rest := fun later =>
            distinct.1 (List.mem_map.2 ⟨_, later, same⟩)
          rw [or_iff_left notLater, and_iff_right same, Option.some.injEq, eq_comm]
      · next different => rw [ih distinct.2, or_iff_right fun first => different first.1]

omit [LT Key] [DecidableLT Key] in
theorem find?_erase (key other : Key) (entries : List (Key × Value)) :
    find? other (erase key entries) = if other = key then none else find? other entries := by
  induction entries with
  | nil => simp [erase, find?]
  | cons entry rest ih =>
      obtain ⟨first, current⟩ := entry
      rw [erase] at ih ⊢
      by_cases erased : first = key
      · subst erased
        rw [List.filter_cons_of_neg (by simp), ih, find?]
        split <;> rfl
      · rw [List.filter_cons_of_pos (by simpa using erased), find?, find?, ih]
        split
        · next same =>
            subst same
            rw [if_neg erased]
        · rfl

theorem mem_of_mem_insert {key : Key} {value : Value}
    {entries : List (Key × Value)} {entry : Key × Value}
    (member : entry ∈ insert key value entries) : entry = (key, value) ∨ entry ∈ entries := by
  induction entries with
  | nil => exact .inl (List.mem_singleton.1 member)
  | cons first rest ih =>
      obtain ⟨other, current⟩ := first
      unfold insert at member
      split at member
      · exact List.mem_cons.1 member
      · split at member
        · exact (List.mem_cons.1 member).imp_right (List.mem_cons_of_mem _)
        · rcases List.mem_cons.1 member with isFirst | later
          · exact .inr (isFirst ▸ List.mem_cons_self)
          · exact (ih later).imp_right (List.mem_cons_of_mem _)

/-- Where a key is new, inserting only adds an entry. -/
theorem insert_perm {key : Key} {entries : List (Key × Value)} (isNew : ¬ key ∈ keys entries)
    (value : Value) : (insert key value entries).Perm ((key, value) :: entries) := by
  induction entries with
  | nil => exact .refl _
  | cons entry rest ih =>
      obtain ⟨other, current⟩ := entry
      rw [keys, List.map_cons, List.mem_cons, not_or] at isNew
      unfold insert
      split
      · exact .refl _
      · rw [if_neg isNew.1]
        exact ((ih isNew.2).cons _).trans (.swap _ _ _)

/-- Inserting entries of different keys one after the other only adds them. -/
theorem foldl_insert_perm (added entries : List (Key × Value))
    (distinct : (keys (added ++ entries)).Nodup) :
    (added.foldl (fun entries entry => insert entry.1 entry.2 entries) entries).Perm
      (added ++ entries) := by
  induction added generalizing entries with
  | nil => exact .refl _
  | cons entry rest ih =>
      have isNew : ¬ entry.1 ∈ keys entries := fun member =>
        (List.nodup_cons.1 distinct).1 (List.mem_map.2 (by
          obtain ⟨other, isOther, same⟩ := List.mem_map.1 member
          exact ⟨other, List.mem_append_right _ isOther, same⟩))
      have moved : (rest ++ insert entry.1 entry.2 entries).Perm (entry :: rest ++ entries) :=
        ((insert_perm isNew entry.2).append_left rest).trans List.perm_middle
      exact (ih _ ((moved.map Prod.fst).nodup_iff.2 distinct)).trans moved

end Entries

namespace NodeMap

variable {Value : Type}

/-- A map is determined by its entries, in whatever order. -/
theorem eq_of_perm {left right : NodeMap Value} (perm : left.entries.Perm right.entries) :
    left = right := by
  have increases : ∀ map : NodeMap Value, map.entries.Pairwise (fun a b => a.1 < b.1) :=
    fun map => List.pairwise_map.1 map.increasing
  have equal := perm.eq_of_pairwise
    (fun a b _ _ below above => absurd below (Nat.lt_asymm above))
    (increases left) (increases right)
  cases left
  cases right
  cases equal
  rfl

/-- The value at a node after steps each of which sets the same value there or none. -/
theorem find?_foldl {Element : Type} {step : NodeMap Value → Element → NodeMap Value}
    {node : NodeId} {value : Value} {sets : Element → Bool}
    (steps : ∀ map element, (step map element).find? node =
      if sets element then some value else map.find? node)
    (elements : List Element) (map : NodeMap Value) :
    (elements.foldl step map).find? node =
      if elements.any sets then some value else map.find? node := by
  induction elements generalizing map with
  | nil => rfl
  | cons first rest ih =>
      rw [List.foldl_cons, ih, steps, List.any_cons]
      cases sets first <;> cases rest.any sets <;> rfl

theorem nodup_keys (map : NodeMap Value) : (Entries.keys map.entries).Nodup :=
  map.increasing.imp Nat.ne_of_lt

@[ext]
theorem ext {left right : NodeMap Value} (same : ∀ node, left.find? node = right.find? node) :
    left = right := by
  have distinct : ∀ map : NodeMap Value, map.entries.Nodup := fun map =>
    (List.pairwise_map.1 map.increasing).imp fun below equal =>
      Nat.ne_of_lt below (congrArg Prod.fst equal)
  refine eq_of_perm ((List.perm_ext_iff_of_nodup (distinct left) (distinct right)).2 ?_)
  rintro ⟨node, value⟩
  rw [← Entries.find?_eq_some_iff left.nodup_keys, ← Entries.find?_eq_some_iff right.nodup_keys]
  exact iff_of_eq (congrArg (· = some value) (same node))

theorem contains_iff {map : NodeMap Value} {node : NodeId} :
    map.contains node = true ↔ node ∈ map.keys :=
  Entries.contains_iff

theorem contains_of_find? {map : NodeMap Value} {node : NodeId} {value : Value}
    (found : map.find? node = some value) : map.contains node = true :=
  Option.isSome_of_eq_some found

theorem contains_insert {map : NodeMap Value} {node other : NodeId} {value : Value} :
    (map.insert node value).contains other = true ↔ other = node ∨ map.contains other = true := by
  simp only [contains_iff]
  exact mem_keys_insert

theorem find?_insert (map : NodeMap Value) (node other : NodeId) (value : Value) :
    (map.insert node value).find? other = if other = node then some value else map.find? other := by
  split
  · next same => rw [same, find?_insert_self]
  · next different => exact map.find?_insert_of_ne different value

theorem find?_erase (map : NodeMap Value) (node other : NodeId) :
    (map.erase node).find? other = if other = node then none else map.find? other :=
  Entries.find?_erase node other map.entries

theorem contains_erase {map : NodeMap Value} {node other : NodeId} :
    (map.erase node).contains other = true ↔ map.contains other = true ∧ other ≠ node := by
  simp only [contains_iff, keys, erase, Entries.keys, Entries.erase, List.mem_map, List.mem_filter,
    bne_iff_ne]
  constructor
  · rintro ⟨entry, ⟨member, apart⟩, rfl⟩
    exact ⟨⟨entry, member, rfl⟩, apart⟩
  · rintro ⟨⟨entry, member, rfl⟩, apart⟩
    exact ⟨entry, ⟨member, apart⟩, rfl⟩

end NodeMap

end Statechart
