import Mathlib.Data.List.Forall2
import Statechart.Action

/-!
# Values without the order of their fields

A reader of an object looks its fields up by name, so the order in which an
object has been written does not matter to it.  Two values are alike if they
differ at most in that order, at any depth; what has been written with certain
fields is then read from every value alike.
-/

namespace Statechart

namespace Json.Value

/-- Values that hold the same, fields being told apart by their names only. -/
inductive Alike : Value → Value → Prop
  | null : Alike null null
  | bool (truth : Bool) : Alike (bool truth) (bool truth)
  | number (n : Number) : Alike (number n) (number n)
  | string (text : String) : Alike (string text) (string text)
  | array {items others : List Value} (alike : List.Forall₂ Alike items others) :
      Alike (array items) (array others)
  | object {fields others : List (String × Value)}
      (alike : ∀ name, Option.Rel Alike (Entries.find? name fields) (Entries.find? name others)) :
      Alike (object fields) (object others)

namespace Alike

mutual

theorem refl : ∀ value : Value, Alike value value
  | .null => .null
  | .bool truth => .bool truth
  | .number n => .number n
  | .string text => .string text
  | .array items => .array (forall₂_refl items)
  | .object fields => .object fun name => by
      cases found : Entries.find? name fields with
      | none => exact .none
      | some inner =>
        have : sizeOf inner < sizeOf fields := sizeOf_lt_of_find found
        exact .some (refl inner)

theorem forall₂_refl : ∀ items : List Value, List.Forall₂ Alike items items
  | [] => .nil
  | item :: rest => .cons (refl item) (forall₂_refl rest)

end

variable {value written : Value} {name : String}

theorem eq_string {text : String} (alike : value.Alike (.string text)) : value = .string text := by
  cases alike
  rfl

theorem eq_bool {truth : Bool} (alike : value.Alike (.bool truth)) : value = .bool truth := by
  cases alike
  rfl

/-- What has been written as an object is taken for the record that it is. -/
theorem record? {fields : List (Option (String × Value))} (alike : value.Alike (ofPresent fields))
    (names : List String) : value.record? names = some value := by
  cases alike
  rfl

theorem field? (alike : value.Alike written) (name : String) :
    Option.Rel Alike (value.field? name) (written.field? name) := by
  cases alike with
  | object alike => exact alike name
  | _ => exact .none

theorem field?_eq_none (alike : value.Alike written) (absent : written.field? name = none) :
    value.field? name = none := by
  have same := alike.field? name
  rw [absent] at same
  generalize value.field? name = found at same ⊢
  cases same
  rfl

theorem exists_field? (alike : value.Alike written) {inner : Value}
    (present : written.field? name = some inner) :
    ∃ found, value.field? name = some found ∧ found.Alike inner := by
  have same := alike.field? name
  rw [present] at same
  generalize value.field? name = found at same ⊢
  cases same with
  | some alike => exact ⟨_, rfl, alike⟩

theorem field?_string (alike : value.Alike written) {text : String}
    (present : written.field? name = some (.string text)) :
    value.field? name = some (.string text) := by
  obtain ⟨found, same, foundAlike⟩ := alike.exists_field? present
  rw [same, foundAlike.eq_string]

theorem field?_bool (alike : value.Alike written) {truth : Bool}
    (present : written.field? name = some (.bool truth)) :
    value.field? name = some (.bool truth) := by
  obtain ⟨found, same, foundAlike⟩ := alike.exists_field? present
  rw [same, foundAlike.eq_bool]

/-! ## Readers of fields -/

theorem requiredText? (alike : value.Alike written) {text : String}
    (present : written.field? name = some (.string text)) :
    value.requiredText? name = some text := by
  rw [Value.requiredText?, alike.field?_string present]
  rfl

theorem optionalText? (alike : value.Alike written) {text : Option String}
    (present : written.field? name = text.map .string) :
    value.optionalText? name = some text := by
  unfold Value.optionalText?
  cases text with
  | none => rw [alike.field?_eq_none present]
  | some content => rw [alike.field?_string present]

theorem flagField? (alike : value.Alike written) {flag : Bool}
    (present : written.field? name = if flag then some (.bool true) else none) :
    value.flagField? name = some flag := by
  unfold Value.flagField? fieldOr?
  cases flag with
  | false => rw [alike.field?_eq_none present]
  | true =>
    rw [alike.field?_bool present]
    rfl

section Lists

variable {Item : Type} {read : List Value → Option (List Item)} {items : List Value}
  {content : List Item}

/-- A list in a field. -/
theorem fieldOr?_items (alike : value.Alike written)
    (reads : ∀ {others : List Value}, List.Forall₂ Alike others items → read others = some content)
    (present : written.field? name = some (.array items)) :
    value.fieldOr? name [] (fun inner => inner.items?.bind read) = some content := by
  obtain ⟨found, same, foundAlike⟩ := alike.exists_field? present
  cases foundAlike with
  | array each =>
    rw [fieldOr?, same]
    exact reads each

/-- A list in a field that has been left out if the list was empty. -/
theorem fieldOr?_nonempty (alike : value.Alike written)
    (reads : ∀ {others : List Value}, List.Forall₂ Alike others items → read others = some content)
    (readsNil : read [] = some [])
    (present : written.field? name = if items.isEmpty then none else some (.array items)) :
    value.fieldOr? name [] (fun inner => inner.items?.bind read) = some content := by
  cases items with
  | nil =>
    rw [fieldOr?, alike.field?_eq_none present]
    exact readsNil.symm.trans (reads .nil)
  | cons item rest => exact alike.fieldOr?_items reads present

variable {encode : Item → Value} {decode : Value → Option Item}

theorem mapM_eq_some (reads : ∀ item {value}, Alike value (encode item) → decode value = some item)
    {values : List Value} (alike : List.Forall₂ Alike values (content.map encode)) :
    values.mapM decode = some content := by
  induction content generalizing values with
  | nil =>
    cases alike
    rfl
  | cons item rest hypothesis =>
    cases alike with
    | cons first others => simp [reads item first, hypothesis others]

theorem listField? (reads : ∀ item {value}, Alike value (encode item) → decode value = some item)
    (alike : value.Alike written)
    (present : written.field? name =
      if (content.map encode).isEmpty then none else some (.array (content.map encode))) :
    value.listField? name decode = some content :=
  alike.fieldOr?_nonempty (mapM_eq_some reads) rfl present

end Lists

end Alike

/-! ## Fields of what has been written -/

/-- What a field that is to be written holds under a name. -/
def heldUnder (name : String) (field : Option (String × Value)) : Option Value :=
  field.bind fun content => if name = content.1 then some content.2 else none

@[simp]
theorem field?_ofPresent_nil (name : String) : (ofPresent []).field? name = none :=
  rfl

@[simp]
theorem field?_ofPresent_cons (name : String) (field : Option (String × Value))
    (rest : List (Option (String × Value))) :
    (ofPresent (field :: rest)).field? name =
      (heldUnder name field).or ((ofPresent rest).field? name) := by
  cases field with
  | none => rfl
  | some content =>
    show (if name = content.1 then some content.2 else _) = (if _ then _ else _ : Option Value).or _
    split <;> rfl

@[simp]
theorem heldUnder_always (name other : String) (value : Value) :
    heldUnder name (always other value) = if name = other then some value else none :=
  rfl

@[simp]
theorem heldUnder_map {Item : Type} (name other : String) (encode : Item → Value)
    (content : Option Item) :
    heldUnder name (content.map fun item => (other, encode item)) =
      if name = other then content.map encode else none := by
  cases content <;> simp [heldUnder]

@[simp]
theorem heldUnder_whenSome (name other : String) (text : Option String) :
    heldUnder name (whenSome other text) = if name = other then text.map .string else none :=
  heldUnder_map name other .string text

@[simp]
theorem heldUnder_whenTrue (name other : String) (flag : Bool) :
    heldUnder name (whenTrue other flag) =
      if name = other then if flag then some (.bool true) else none else none := by
  cases flag <;> simp [heldUnder, whenTrue]

@[simp]
theorem heldUnder_whenNonempty (name other : String) (items : List Value) :
    heldUnder name (whenNonempty other items) =
      if name = other then if items.isEmpty then none else some (.array items) else none := by
  cases items <;> simp [heldUnder, whenNonempty]

end Json.Value

end Statechart
