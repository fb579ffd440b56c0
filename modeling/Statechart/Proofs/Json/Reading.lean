import Statechart.Proofs.Json.Alike
import Statechart.Proofs.Json.Writing

/-!
# Values of compact texts

From the tokens of a value its tree is built again, and unless too many
containers are within each other the tree has a value alike.
-/

namespace Statechart

theorem Entries.find?_eq_none_iff {Key Content : Type} [DecidableEq Key] {key : Key}
    {entries : List (Key × Content)} :
    Entries.find? key entries = none ↔ key ∉ Entries.keys entries := by
  induction entries with
  | nil => simp [Entries.find?, Entries.keys]
  | cons entry rest hypothesis =>
    rw [Entries.find?, Entries.keys, List.map_cons, List.mem_cons, not_or]
    split
    · next same => simp [same]
    · next different => exact hypothesis.trans (by simp [different, Entries.keys])

namespace Json

namespace Value

/-! ## Trees -/

mutual

/-- The tree that is built from the tokens of a value. -/
def tree : Value → Tree
  | array items => .array (itemTrees items)
  | object fields => .object (fieldTrees fields)
  | leaf => .leaf (some leaf)

def itemTrees : List Value → List Tree
  | [] => []
  | item :: rest => item.tree :: itemTrees rest

def fieldTrees : List (String × Value) → List (Option String × Tree)
  | [] => []
  | (name, value) :: rest => (some name, value.tree) :: fieldTrees rest

end

open Reading

/-- No value begins with the end of an array. -/
theorem foldlM_take?_valueOrEnd (frames : List Frame) (rest : List Token) (value : Value) :
    (value.tokens ++ rest).foldlM take? ⟨frames, .valueOrEnd⟩ =
      (value.tokens ++ rest).foldlM take? ⟨frames, .value⟩ := by
  cases value with
  | array items => cases items <;> rfl
  | object fields => cases fields <;> rfl
  | _ => rfl

mutual

/-- Where a value may come, its tokens are taken for the value. -/
theorem foldlM_take?_tokens (frames : List Frame) (rest : List Token) :
    ∀ value : Value, (value.tokens ++ rest).foldlM take? ⟨frames, .value⟩ =
      rest.foldlM take? (complete frames value.tree)
  | .null | .bool _ | .number _ | .string _ | .array [] | .object [] => rfl
  | .array (first :: others) => by
    have split : (array (first :: others)).tokens ++ rest =
        .openArray :: (first.tokens ++ (itemTokens others ++ .closeArray :: rest)) := by
      simp [tokens]
    rw [split]
    -- Within the new frame the items pile up, the last one first, until the end comes.
    show (first.tokens ++ _).foldlM take? ⟨.items [] :: frames, .valueOrEnd⟩ = _
    rw [foldlM_take?_valueOrEnd, foldlM_take?_tokens _ _ first]
    show (itemTokens others ++ _).foldlM take? ⟨.items [first.tree] :: frames, .separator⟩ = _
    rw [foldlM_take?_itemTokens]
    show rest.foldlM take? (complete frames (.array _)) = _
    simp [tree, itemTrees]
  | .object ((name, value) :: others) => by
    have split : (object ((name, value) :: others)).tokens ++ rest =
        .openObject :: .text (some name) :: .colon ::
          (value.tokens ++ (fieldTokens others ++ .closeObject :: rest)) := by
      simp [tokens]
    rw [split]
    show (value.tokens ++ _).foldlM take? ⟨.fields [] (some name) :: frames, .value⟩ = _
    rw [foldlM_take?_tokens _ _ value]
    show (fieldTokens others ++ _).foldlM take?
      ⟨.fields [(some name, value.tree)] none :: frames, .separator⟩ = _
    rw [foldlM_take?_fieldTokens]
    show rest.foldlM take? (complete frames (.object _)) = _
    simp [tree, fieldTrees]

theorem foldlM_take?_itemTokens (found : List Tree) (frames : List Frame) (rest : List Token) :
    ∀ items : List Value,
      (itemTokens items ++ rest).foldlM take? ⟨.items found :: frames, .separator⟩ =
        rest.foldlM take? ⟨.items ((itemTrees items).reverse ++ found) :: frames, .separator⟩
  | [] => rfl
  | item :: others => by
    have split : itemTokens (item :: others) ++ rest =
        .comma :: (item.tokens ++ (itemTokens others ++ rest)) := by
      simp [itemTokens]
    rw [split]
    show (item.tokens ++ _).foldlM take? ⟨.items found :: frames, .value⟩ = _
    rw [foldlM_take?_tokens _ _ item]
    show (itemTokens others ++ _).foldlM take? ⟨.items (item.tree :: found) :: frames, _⟩ = _
    rw [foldlM_take?_itemTokens]
    simp [itemTrees]

theorem foldlM_take?_fieldTokens (found : List (Option String × Tree)) (frames : List Frame)
    (rest : List Token) :
    ∀ fields : List (String × Value),
      (fieldTokens fields ++ rest).foldlM take? ⟨.fields found none :: frames, .separator⟩ =
        rest.foldlM take?
          ⟨.fields ((fieldTrees fields).reverse ++ found) none :: frames, .separator⟩
  | [] => rfl
  | (name, value) :: others => by
    have split : fieldTokens ((name, value) :: others) ++ rest =
        .comma :: .text (some name) :: .colon ::
          (value.tokens ++ (fieldTokens others ++ rest)) := by
      simp [fieldTokens]
    rw [split]
    show (value.tokens ++ _).foldlM take? ⟨.fields found (some name) :: frames, .value⟩ = _
    rw [foldlM_take?_tokens _ _ value]
    show (fieldTokens others ++ _).foldlM take?
      ⟨.fields ((some name, value.tree) :: found) none :: frames, _⟩ = _
    rw [foldlM_take?_fieldTokens]
    simp [fieldTrees]

end

theorem ofText?_compact {value : Value} (wordy : value.IsWordy) :
    Tree.ofText? value.compact = some value.tree := by
  have taken := foldlM_take?_tokens [] [] value
  rw [List.append_nil] at taken
  rw [Tree.ofText?, tokens?_compact wordy]
  simp only [Option.bind_eq_bind, Option.bind_some, List.foldlM_toArray]
  show (value.tokens.foldlM take? ⟨[], .value⟩).bind _ = _
  rw [taken]
  rfl

/-! ## Values of trees -/

mutual

/-- The greatest number of containers within each other, the value itself counted. -/
def depth : Value → Nat
  | array items => itemsDepth items + 1
  | object fields => fieldsDepth fields + 1
  | _ => 0

def itemsDepth : List Value → Nat
  | [] => 0
  | item :: rest => max item.depth (itemsDepth rest)

def fieldsDepth : List (String × Value) → Nat
  | [] => 0
  | (_, value) :: rest => max value.depth (fieldsDepth rest)

end

mutual

theorem exists_valueFor?_tree :
    ∀ {value : Value} {limit : Nat}, value.IsWordy → value.depth ≤ limit →
      ∃ read, value.tree.valueFor? .everything () limit = some read ∧ read.Alike value
  | .null, _, _, _ | .bool _, _, _, _ | .string _, _, _, _ =>
    ⟨_, by simp [tree, Tree.valueFor?], .refl _⟩
  | .array items, limit + 1, .array each, shallow => by
    obtain ⟨read, same, alike⟩ := exists_itemsFor?_itemTrees 0 each
      (Nat.le_of_succ_le_succ shallow)
    exact ⟨.array read, by simp [tree, Tree.valueFor?, same], .array alike⟩
  | .object fields, limit + 1, .object names each, shallow => by
    have nothing (name : String) :
        Option.Rel Alike (Entries.find? name []) (Entries.find? name []) := .none
    obtain ⟨read, same, alike⟩ := exists_fieldsFor?_fieldTrees names each
      (Nat.le_of_succ_le_succ shallow) nothing
    refine ⟨.object read, by simp [tree, Tree.valueFor?, same], .object fun name => ?_⟩
    simpa [Entries.find?] using alike name

theorem exists_itemsFor?_itemTrees :
    ∀ {items : List Value} {limit : Nat} (place : Nat), (∀ item ∈ items, IsWordy item) →
      itemsDepth items ≤ limit →
      ∃ read, Tree.itemsFor? .everything () limit place (itemTrees items) = some read ∧
        List.Forall₂ Alike read items
  | [], _, _, _, _ => ⟨[], rfl, .nil⟩
  | item :: rest, limit, place, each, shallow => by
    obtain ⟨shallowItem, shallowRest⟩ := Nat.max_le.1 shallow
    obtain ⟨first, sameFirst, alikeFirst⟩ :=
      exists_valueFor?_tree (each item List.mem_cons_self) shallowItem
    obtain ⟨others, sameOthers, alikeOthers⟩ := exists_itemsFor?_itemTrees (place + 1)
      (fun other among => each other (List.mem_cons_of_mem item among)) shallowRest
    exact ⟨first :: others, by simp [itemTrees, Tree.itemsFor?, sameFirst, sameOthers],
      .cons alikeFirst alikeOthers⟩

/-- The fields are added to those found so far. -/
theorem exists_fieldsFor?_fieldTrees :
    ∀ {fields others found : List (String × Value)} {limit : Nat},
      (Entries.keys fields).Nodup → (∀ field ∈ fields, IsWordy field.2) →
      fieldsDepth fields ≤ limit →
      (∀ name, Option.Rel Alike (Entries.find? name found) (Entries.find? name others)) →
      ∃ read, Tree.fieldsFor? .everything () limit found (fieldTrees fields) = some read ∧
        ∀ name, Option.Rel Alike (Entries.find? name read)
          ((Entries.find? name fields).or (Entries.find? name others))
  | [], _, found, _, _, _, _, alike => ⟨found, rfl, alike⟩
  | (name, value) :: rest, others, found, limit, names, each, shallow, alike => by
    obtain ⟨shallowValue, shallowRest⟩ := Nat.max_le.1 shallow
    obtain ⟨notAmong, names⟩ := List.nodup_cons.1 names
    obtain ⟨first, sameFirst, alikeFirst⟩ :=
      exists_valueFor?_tree (each (name, value) List.mem_cons_self) shallowValue
    have alikeMore (other : String) :
        Option.Rel Alike (Entries.find? other (Entries.insert name first found))
          (Entries.find? other (Entries.insert name value others)) := by
      by_cases same : other = name
      · subst same
        rw [Entries.find?_insert_self, Entries.find?_insert_self]
        exact .some alikeFirst
      · rw [Entries.find?_insert_of_ne same, Entries.find?_insert_of_ne same]
        exact alike other
    obtain ⟨read, sameRead, alikeRead⟩ := exists_fieldsFor?_fieldTrees names
      (fun field among => each field (List.mem_cons_of_mem (name, value) among)) shallowRest
      alikeMore
    have asked : Outline.everything.field? () name = some () := rfl
    refine ⟨read, by simp [fieldTrees, Tree.fieldsFor?, asked, sameFirst, sameRead],
      fun other => ?_⟩
    have held := alikeRead other
    -- The name does not come again among the rest, so its value is kept.
    by_cases same : other = name
    · subst same
      rw [Entries.find?_eq_none_iff.2 notAmong, Entries.find?_insert_self] at held
      simpa [Entries.find?] using held
    · rw [Entries.find?_insert_of_ne same] at held
      simpa [Entries.find?, same] using held

end

end Value

/-- The compact text of a value without numbers is read as a value alike. -/
theorem exists_parse?_compact {value : Value} (wordy : value.IsWordy)
    (shallow : value.depth ≤ depthLimit) :
    ∃ read, parse? value.compact = some read ∧ read.Alike value := by
  obtain ⟨read, same, alike⟩ := Value.exists_valueFor?_tree wordy shallow
  refine ⟨read, ?_, alike⟩
  rw [parse?, Value.ofText?_compact wordy]
  exact same

/-! ## Objects of which only some fields are present -/

namespace Value.IsWordy

variable {field : Option (String × Value)} {rest : List (Option (String × Value))} {name : String}

theorem ofPresent_nil : IsWordy (ofPresent []) :=
  .object List.nodup_nil fun _ among => absurd among List.not_mem_nil

theorem ofPresent_cons (named : ∀ content ∈ field, content.1 = name ∧ content.2.IsWordy)
    (absent : (ofPresent rest).field? name = none) (others : IsWordy (ofPresent rest)) :
    IsWordy (ofPresent (field :: rest)) := by
  cases field with
  | none => exact others
  | some content =>
    obtain ⟨rfl, wordy⟩ := named content rfl
    cases others with
    | object names each =>
      exact .object (List.nodup_cons.2 ⟨Entries.find?_eq_none_iff.1 absent, names⟩)
        (List.forall_mem_cons.2 ⟨wordy, each⟩)

theorem always {value : Value} (wordy : value.IsWordy)
    (absent : (ofPresent rest).field? name = none) (others : IsWordy (ofPresent rest)) :
    IsWordy (ofPresent (always name value :: rest)) :=
  ofPresent_cons (by simp [Statechart.always, wordy]) absent others

theorem optional {Item : Type} {encode : Item → Value} {content : Option Item}
    (wordy : ∀ item ∈ content, (encode item).IsWordy)
    (absent : (ofPresent rest).field? name = none) (others : IsWordy (ofPresent rest)) :
    IsWordy (ofPresent (content.map (fun item => (name, encode item)) :: rest)) :=
  ofPresent_cons (by simpa [Option.mem_def] using wordy) absent others

theorem whenSome {text : Option String} (absent : (ofPresent rest).field? name = none)
    (others : IsWordy (ofPresent rest)) : IsWordy (ofPresent (whenSome name text :: rest)) :=
  optional (fun content _ => .string content) absent others

theorem whenTrue {flag : Bool} (absent : (ofPresent rest).field? name = none)
    (others : IsWordy (ofPresent rest)) : IsWordy (ofPresent (whenTrue name flag :: rest)) := by
  cases flag with
  | false => exact others
  | true => exact always (.bool true) absent others

theorem whenNonempty {items : List Value} (each : ∀ item ∈ items, item.IsWordy)
    (absent : (ofPresent rest).field? name = none) (others : IsWordy (ofPresent rest)) :
    IsWordy (ofPresent (whenNonempty name items :: rest)) := by
  cases items with
  | nil => exact others
  | cons item rest => exact always (.array each) absent others

end Value.IsWordy

end Json

end Statechart
