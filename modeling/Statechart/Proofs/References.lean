import Statechart.Proofs.DataModel
import Statechart.Proofs.Guard.Completeness

/-!
# References to fields

A reference is the beginning of a root and a path below it.  It has no blanks at its
ends and is no JSON text, so as an expression it has the value of its field.  As a
guard it is read by another scanner, which takes the same characters for the path: so
it is the field alone, and holds if this value counts as true.
-/

namespace Statechart

namespace Text

theorem after?_eq_some_iff {beginning text rest : String} :
    after? beginning text = some rest ↔ text = beginning ++ rest := by
  constructor
  · intro found
    unfold after? at found
    split at found
    · next begins =>
        cases found
        obtain ⟨after, split⟩ := List.isPrefixOf_iff_prefix.1 begins
        rw [← String.toList_inj, String.toList_append, String.toList_ofList, ← split,
          List.drop_left]
    · cases found
  · rintro rfl
    exact after?_append beginning rest

end Text

namespace Field

/-- The text that refers to a field. -/
def reference (field : Field) : String :=
  field.root.beginning ++ field.path

theorem toList_reference (field : Field) :
    field.reference.toList = field.root.beginning.toList ++ field.path.toList := by
  rw [reference, String.toList_append]

/-- A reference is no JSON text, because its first character begins none. -/
theorem parse?_reference (field : Field) : Json.parse? field.reference = none := by
  have noTokens : Json.tokens? field.reference = none := by
    rw [Json.tokens?, toList_reference]
    cases field.root with
    | context => rfl
    | event => rfl
  rw [Json.parse?, Json.Tree.ofText?, noTokens]
  rfl

variable {field : Field} (isPath : Text.IsFieldPath field.path)
include isPath

theorem isTrimmed_reference : Text.IsTrimmed field.reference.toList := by
  constructor
  · intro c isFirst
    obtain ⟨first, others, begins, opens⟩ :=
      Guard.exists_first_of_field ⟨isPath, field.toList_reference⟩
    rw [begins] at isFirst
    exact Option.some.inj isFirst ▸ Guard.Level.isBlank_of_mem_openings opens
  · intro c isLast
    rw [toList_reference, List.getLast?_append, List.getLast?_eq_some_getLast isPath.nonempty,
      Option.some_or] at isLast
    cases isLast
    exact Text.isBlank_of_isPathChar (isPath.chars _ (List.getLast_mem isPath.nonempty))

theorem trim_reference : Text.trim field.reference = field.reference := by
  rw [Text.trim, (isTrimmed_reference isPath).trimChars_eq, String.ofList_toList]

/-- As a guard a reference is its field and nothing else, whatever blanks are around it. -/
theorem parse_of_trim {text : String} (refers : Text.trim text = field.reference) :
    Guard.parse text = .ok (.truthy field) := by
  have trimmed : Text.trimChars text.toList = field.reference.toList := by
    rw [← refers, Text.trim, String.toList_ofList]
  apply Guard.parse_of_spells
  rw [trimmed]
  exact .ofConjunction (.ofUnary (.ofPrimary (.truthy ⟨isPath, field.toList_reference⟩)))

end Field

namespace DataModel

variable {field : Field} {text : String}

theorem fieldReference?_reference (isPath : Text.IsFieldPath field.path) :
    fieldReference? field.reference = some field := by
  obtain ⟨root, path⟩ := field
  have nonempty : path.toList.isEmpty = false := by
    simpa using isPath.nonempty
  have allChars : path.toList.all Text.isPathChar = true :=
    List.all_eq_true.2 isPath.chars
  cases root with
  | context =>
      have found : Text.after? "ctx." (Field.mk .context path).reference = some path :=
        Text.after?_append "ctx." path
      rw [fieldReference?, found]
      simp [nonempty, allChars]
  | event =>
      have notContext : Text.after? "ctx." (Field.mk .event path).reference = none := by
        simp [Text.after?, Field.toList_reference, FieldRoot.beginning]
      have found : Text.after? "_event." (Field.mk .event path).reference = some path :=
        Text.after?_append "_event." path
      rw [fieldReference?, notContext, found]
      simp [nonempty, allChars]

/-- The texts that are accepted as fields are the references to them. -/
theorem fieldReference?_eq_some_iff :
    fieldReference? text = some field ↔ Text.IsFieldPath field.path ∧ text = field.reference := by
  constructor
  · intro accepted
    have below : ∀ root path,
        (if path.toList.isEmpty || !path.toList.all Text.isPathChar then none
          else some (Field.mk root path)) = some field →
        text = root.beginning ++ path →
        Text.IsFieldPath field.path ∧ text = field.reference := by
      intro root path isField front
      split at isField
      · cases isField
      · next valid =>
          cases isField
          rw [Bool.or_eq_true, not_or, Bool.not_eq_true, Bool.not_eq_true', Bool.not_eq_false,
            List.all_eq_true] at valid
          exact ⟨⟨by simpa using valid.1, valid.2⟩, front⟩
    unfold fieldReference? at accepted
    dsimp only at accepted
    split at accepted
    · next found => exact below .context _ accepted (Text.after?_eq_some_iff.1 found)
    · split at accepted
      · next found => exact below .event _ accepted (Text.after?_eq_some_iff.1 found)
      · cases accepted
  · rintro ⟨isPath, rfl⟩
    exact fieldReference?_reference isPath

variable (isPath : Text.IsFieldPath field.path) (refers : Text.trim text = field.reference)
include isPath refers

/-- As an expression a reference has the value of its field, and no guard is looked up. -/
theorem evalExpression_field (model : DataModel) (around : Surroundings) :
    model.evalExpression around text = (.ok (field.resolve model.context around), model) := by
  have nonempty : field.reference.toList.isEmpty = false := by
    rw [Field.toList_reference, List.isEmpty_eq_false_iff]
    exact List.append_ne_nil_of_right_ne_nil _ isPath.nonempty
  rw [evalExpression, refers, Field.parse?_reference, fieldReference?_reference isPath]
  simp only [nonempty, Bool.false_eq_true, if_false]

theorem IsSound.evalCondition_field {model : DataModel} (sound : model.IsSound)
    (around : Surroundings) :
    (model.evalCondition around text).1 =
      .ok (field.resolve model.context around).isTruthy := by
  rw [sound.evalCondition_eq, Field.parse_of_trim isPath refers]
  rfl

end DataModel

end Statechart
