import Statechart.Proofs.References

/-!
# Assignments

An assignment puts a value at the end of a path of field names and creates the
objects that are missing on the way.  It fails just where the path would go below
something that is there and no object.  What it writes is read back, and what can
be read at other paths stays as it was, unless one path leads through the other.
-/

namespace Statechart

namespace Json.Value

variable {value new after : Value} {path other : List String}

/-- What there is at the end of a path, none if the path leaves what is there. -/
def existing? : Value → List String → Option Value
  | value, [] => some value
  | .object fields, name :: rest =>
    match Entries.find? name fields with
    | some inner => inner.existing? rest
    | none => none
  | _, _ :: _ => none

/-- A path that would go below something that is there and no object. -/
def IsBlocked (value : Value) (path : List String) : Prop :=
  ∃ front, front ≠ [] ∧ front <+: path ∧ front ≠ path ∧
    ∃ found, value.existing? front = some found ∧ found.isObject = false

/-- Neither of two paths leads through the end of the other. -/
def LeadApart (path other : List String) : Prop :=
  ¬ path <+: other ∧ ¬ other <+: path

instance (path other : List String) : Decidable (LeadApart path other) :=
  inferInstanceAs (Decidable (_ ∧ _))

theorem exists_fields_of_isObject (isObject : value.isObject = true) :
    ∃ fields, value = .object fields := by
  cases value with
  | object fields => exact ⟨fields, rfl⟩
  | _ => cases isObject

@[simp]
theorem atPath_null (path : List String) : null.atPath path = null := by
  cases path <;> rfl

theorem atPath_object (fields : List (String × Value)) (name : String) (rest : List String) :
    (object fields).atPath (name :: rest) =
      ((Entries.find? name fields).getD null).atPath rest := by
  rw [atPath]
  cases Entries.find? name fields <;> rfl

/-- A path finds nothing below what is no object. -/
theorem atPath_of_not_isObject (notObject : value.isObject = false) (nonempty : path ≠ []) :
    value.atPath path = null := by
  cases path with
  | nil => exact absurd rfl nonempty
  | cons name rest =>
      cases value with
      | object fields => cases notObject
      | _ => rfl

theorem atPath_emptyObject (nonempty : path ≠ []) : emptyObject.atPath path = null := by
  cases path with
  | nil => exact absurd rfl nonempty
  | cons name rest => rw [emptyObject, atPath_object, Entries.find?, Option.getD_none, atPath_null]

/-! ## Where a path is blocked -/

theorem not_isBlocked_singleton (value : Value) (name : String) : ¬ value.IsBlocked [name] := by
  rintro ⟨front, nonempty, leads, proper, -⟩
  rcases List.prefix_cons_iff.1 leads with isEmpty | ⟨rest, isFront, isRest⟩
  · exact nonempty isEmpty
  · rw [List.prefix_nil.1 isRest] at isFront
    exact proper isFront

/-- Below a field the rest of the path decides. -/
theorem isBlocked_object_iff {fields : List (String × Value)} {name next : String}
    {rest : List String} :
    (object fields).IsBlocked (name :: next :: rest) ↔
      ∃ inner, Entries.find? name fields = some inner ∧
        (inner.isObject = false ∨ inner.IsBlocked (next :: rest)) := by
  constructor
  · rintro ⟨front, nonempty, leads, proper, found, isFound, notObject⟩
    rcases List.prefix_cons_iff.1 leads with isEmpty | ⟨further, rfl, isFurther⟩
    · exact absurd isEmpty nonempty
    · rw [existing?] at isFound
      cases isInner : Entries.find? name fields with
      | none =>
          rw [isInner] at isFound
          cases isFound
      | some inner =>
          rw [isInner] at isFound
          refine ⟨inner, rfl, ?_⟩
          by_cases ends : further = []
          · rw [ends] at isFound
            cases isFound
            exact .inl notObject
          · have stillProper : further ≠ next :: rest :=
              fun same => proper (congrArg (name :: ·) same)
            exact .inr ⟨further, ends, isFurther, stillProper, found, isFound, notObject⟩
  · rintro ⟨inner, isInner, notObject | ⟨further, _, leads, proper, found, isFound, notObject⟩⟩
    · refine ⟨[name], List.cons_ne_nil _ _, ?_, by simp, inner, ?_, notObject⟩
      · exact List.prefix_cons_iff.2 (.inr ⟨[], rfl, List.nil_prefix⟩)
      · rw [existing?, isInner]
        rfl
    · refine ⟨name :: further, List.cons_ne_nil _ _, List.prefix_cons_iff.2 (.inr ⟨further, rfl,
        leads⟩), fun same => proper (List.cons.inj same).2, found, ?_, notObject⟩
      rw [existing?, isInner]
      exact isFound

theorem not_isBlocked_emptyObject (path : List String) : ¬ emptyObject.IsBlocked path := by
  rintro ⟨front, nonempty, -, -, found, isFound, -⟩
  cases front with
  | nil => exact nonempty rfl
  | cons name rest => cases isFound

/-! ## Assigning into an object -/

/-- Assigning below a field is assigning into what the field has. -/
theorem assign_object (fields : List (String × Value)) (name : String) (rest : List String)
    (new : Value) :
    (object fields).assign (name :: rest) new =
      (((Entries.find? name fields).getD emptyObject).assign rest new).map id
        fun inner => object (Entries.set name inner fields) :=
  rfl

theorem assign_of_not_isObject (notObject : value.isObject = false) (name : String)
    (rest : List String) (new : Value) :
    value.assign (name :: rest) new = (.error name, value) := by
  cases value with
  | object fields => cases notObject
  | _ => rfl

/-- An assignment into an object fails exactly if its path is blocked. -/
theorem assign_fails_iff (isObject : value.isObject = true) :
    (∃ part, (value.assign path new).1 = .error part) ↔ value.IsBlocked path := by
  induction path generalizing value with
  | nil =>
      refine ⟨fun ⟨part, fails⟩ => ?_, fun ⟨front, nonempty, leads, _⟩ => ?_⟩
      · cases value <;> cases fails
      · exact absurd (List.prefix_nil.1 leads) nonempty
  | cons name rest ih =>
      obtain ⟨fields, rfl⟩ := exists_fields_of_isObject isObject
      rw [assign_object, Prod.map_fst, id]
      cases rest with
      | nil =>
          refine ⟨fun ⟨part, fails⟩ => ?_, fun blocked => ?_⟩
          · cases (Entries.find? name fields).getD emptyObject <;> cases fails
          · exact absurd blocked (not_isBlocked_singleton _ name)
      | cons next rest =>
          have fails_iff : ∀ inner : Value,
              (∃ part, (inner.assign (next :: rest) new).1 = .error part) ↔
                inner.isObject = false ∨ inner.IsBlocked (next :: rest) := by
            intro inner
            cases isInner : inner.isObject with
            | false =>
                rw [assign_of_not_isObject isInner]
                exact ⟨fun _ => .inl rfl, fun _ => ⟨next, rfl⟩⟩
            | true => simp [ih isInner]
          rw [isBlocked_object_iff, fails_iff]
          cases isInner : Entries.find? name fields with
          | none => simp [not_isBlocked_emptyObject, show emptyObject.isObject = true from rfl]
          | some inner => simp

/-- A walk that fails has come by objects that were there, so it leaves everything as it was. -/
theorem assign_eq_of_fails {part : String} (fails : (value.assign path new).1 = .error part) :
    (value.assign path new).2 = value := by
  induction path generalizing value with
  | nil => cases value <;> cases fails
  | cons name rest ih =>
      cases isObject : value.isObject with
      | false => rw [assign_of_not_isObject isObject]
      | true =>
          obtain ⟨fields, rfl⟩ := exists_fields_of_isObject isObject
          rw [assign_object, Prod.map_fst, id] at fails
          rw [assign_object, Prod.map_snd]
          cases isInner : Entries.find? name fields with
          | none =>
              -- In an object that has just been created nothing blocks the rest of the path.
              rw [isInner, Option.getD_none] at fails
              exact absurd ((assign_fails_iff rfl).1 ⟨part, fails⟩) (not_isBlocked_emptyObject rest)
          | some inner =>
              rw [isInner, Option.getD_some] at fails
              rw [Option.getD_some, ih fails, Entries.set_of_find? isInner]

/-- A successful assignment to a field puts something else there, and only there. -/
theorem exists_of_assign_cons {name : String} {rest : List String}
    (done : value.assign (name :: rest) new = (.ok (), after)) :
    ∃ fields inner, value = .object fields ∧ after = .object (Entries.set name inner fields) ∧
      ((Entries.find? name fields).getD emptyObject).assign rest new = (.ok (), inner) := by
  cases isObject : value.isObject with
  | false =>
      rw [assign_of_not_isObject isObject] at done
      cases done
  | true =>
      obtain ⟨fields, rfl⟩ := exists_fields_of_isObject isObject
      rw [assign_object] at done
      obtain ⟨succeeds, rfl⟩ := Prod.mk.inj done
      exact ⟨fields, _, rfl, rfl, Prod.ext succeeds rfl⟩

/-- What is assigned is read back. -/
theorem atPath_assign (done : value.assign path new = (.ok (), after)) :
    after.atPath path = new := by
  induction path generalizing value after with
  | nil => cases value <;> cases done <;> rfl
  | cons name rest ih =>
      obtain ⟨fields, inner, rfl, rfl, assigned⟩ := exists_of_assign_cons done
      rw [atPath_object, Entries.find?_set_self, Option.getD_some]
      exact ih assigned

/-- What is read at a path that leads apart stays as it was. -/
theorem atPath_assign_of_leadApart (done : value.assign path new = (.ok (), after))
    (apart : LeadApart path other) : after.atPath other = value.atPath other := by
  induction path generalizing value after other with
  | nil => exact absurd List.nil_prefix apart.1
  | cons name rest ih =>
      cases other with
      | nil => exact absurd List.nil_prefix apart.2
      | cons first others =>
          obtain ⟨fields, inner, rfl, rfl, assigned⟩ := exists_of_assign_cons done
          rw [atPath_object, atPath_object]
          by_cases same : first = name
          · subst same
            have restApart : LeadApart rest others := by
              simpa only [LeadApart, List.cons_prefix_cons, true_and] using apart
            rw [Entries.find?_set_self, Option.getD_some, ih assigned restApart]
            cases Entries.find? first fields with
            | some there => rfl
            | none =>
                have nonempty : others ≠ [] := by
                  rintro rfl
                  exact restApart.2 List.nil_prefix
                rw [Option.getD_none, Option.getD_none, atPath_emptyObject nonempty, atPath_null]
          · rw [Entries.find?_set_of_ne same]

end Json.Value

/-! ## Assignments of a data model -/

namespace DataModel

variable {model : DataModel} {around : Surroundings} {path : String} {value : Json.Value}

theorem reference_context (path : String) : (Field.mk .context path).reference = "ctx." ++ path :=
  rfl

theorem trim_reference (isPath : Text.IsFieldPath path) :
    Text.trim ("ctx." ++ path) = "ctx." ++ path := by
  rw [← reference_context]
  exact Field.trim_reference isPath

/-- A reference to a field of the context has the value that is there. -/
theorem evalExpression_reference (isPath : Text.IsFieldPath path) (model : DataModel)
    (around : Surroundings) :
    model.evalExpression around ("ctx." ++ path) =
      (.ok (model.context.atPath (Text.dottedParts path)), model) := by
  rw [← reference_context]
  exact evalExpression_field isPath (Field.trim_reference isPath) model around

/-! ## What an assignment does -/

/-- A context that is no object gives way to an empty one. -/
def assignable (context : Json.Value) : Json.Value :=
  if context.isObject then context else .emptyObject

theorem isObject_assignable (context : Json.Value) : (assignable context).isObject = true := by
  rw [assignable]
  split
  · assumption
  · rfl

theorem isBlocked_assignable_iff {context : Json.Value} {parts : List String} :
    (assignable context).IsBlocked parts ↔
      context.isObject = true ∧ context.IsBlocked parts := by
  rw [assignable]
  split
  · next isObject => exact (and_iff_right isObject).symm
  · next notObject =>
      exact iff_of_false (Json.Value.not_isBlocked_emptyObject parts) fun both => notObject both.1

theorem atPath_assignable (context : Json.Value) {parts : List String} (nonempty : parts ≠ []) :
    (assignable context).atPath parts = context.atPath parts := by
  rw [assignable]
  split
  · rfl
  · next notObject =>
      rw [Json.Value.atPath_emptyObject nonempty,
        Json.Value.atPath_of_not_isObject (Bool.eq_false_iff.2 notObject) nonempty]

/-- An assignment evaluates its expression and then assigns into the context. -/
theorem execute_assign (isPath : Text.IsFieldPath path) {expression : String}
    (evaluates : (model.evalExpression around expression).1 = .ok value) :
    model.execute around (.assign ("ctx." ++ path) expression) =
      let assigned := (assignable model.context).assign (Text.dottedParts path) value
      (assigned.1.mapError fun part => ⟨"ctx." ++ path, .notAnObject part⟩,
        { (model.evalExpression around expression).2 with context := assigned.2 }) := by
  have sameContext := model.context_evalExpression around expression
  have nonempty : path.toList.isEmpty = false := by
    simpa using isPath.nonempty
  have parts : locationParts? ("ctx." ++ path) = some (Text.dottedParts path) := by
    rw [locationParts?, trim_reference isPath, Text.after?_append]
    simp [nonempty]
  cases evaluated : model.evalExpression around expression with
  | mk result next =>
      rw [evaluated] at evaluates sameContext
      cases evaluates
      rw [execute, evaluated]
      dsimp only
      rw [assign, parts]
      dsimp only
      rw [sameContext]
      rfl

/-- An assignment to a field of the context fails exactly if the context is an object and the path
goes on below something in it that is there and no object; the context stays as it is.
Otherwise the field then has the value, and every field that leads apart has the value it had. -/
theorem assignment_writes_or_fails (model : DataModel) (around : Surroundings)
    {expression : String} (evaluates : (model.evalExpression around expression).1 = .ok value)
    (isPath : Text.IsFieldPath path) :
    let after := model.execute around (.assign ("ctx." ++ path) expression)
    ((∃ fault, after.1 = .error fault) ↔
      model.context.isObject = true ∧ model.context.IsBlocked (Text.dottedParts path)) ∧
    ((∃ fault, after.1 = .error fault) → after.2.context = model.context) ∧
    (after.1 = .ok () →
      (∀ surroundings,
        (after.2.evalExpression surroundings ("ctx." ++ path)).1 = .ok value) ∧
      ∀ other, Json.Value.LeadApart (Text.dottedParts path) (Text.dottedParts other) →
        after.2.context.atPath (Text.dottedParts other) =
          model.context.atPath (Text.dottedParts other) ∧
        (Text.IsFieldPath other → ∀ surroundings,
          (after.2.evalExpression surroundings ("ctx." ++ other)).1 =
            (model.evalExpression surroundings ("ctx." ++ other)).1)) := by
  have fails_iff : (∃ part, ((assignable model.context).assign (Text.dottedParts path) value).1 =
      .error part) ↔ (assignable model.context).IsBlocked (Text.dottedParts path) :=
    Json.Value.assign_fails_iff (isObject_assignable model.context)
  rw [execute_assign isPath evaluates, ← isBlocked_assignable_iff, ← fails_iff]
  cases assigned : (assignable model.context).assign (Text.dottedParts path) value with
  | mk outcome context =>
      rw [assigned] at fails_iff
      cases outcome with
      | error part =>
          have isObject : model.context.isObject = true :=
            (isBlocked_assignable_iff.1 (fails_iff.1 ⟨part, rfl⟩)).1
          have unchanged : context = assignable model.context := by
            have left := Json.Value.assign_eq_of_fails (congrArg Prod.fst assigned)
            rwa [assigned] at left
          refine ⟨⟨fun _ => ⟨part, rfl⟩, fun _ => ⟨_, rfl⟩⟩, fun _ => ?_, fun succeeds => ?_⟩
          · exact unchanged.trans (if_pos isObject)
          · cases succeeds
      | ok done =>
          refine ⟨⟨fun ⟨_, fails⟩ => ?_, fun ⟨_, fails⟩ => ?_⟩, fun ⟨_, fails⟩ => ?_,
            fun _ => ⟨?_, ?_⟩⟩
          · cases fails
          · cases fails
          · cases fails
          · intro surroundings
            rw [evalExpression_reference isPath]
            exact congrArg Except.ok (Json.Value.atPath_assign assigned)
          · intro other apart
            have kept : context.atPath (Text.dottedParts other) =
                model.context.atPath (Text.dottedParts other) :=
              (Json.Value.atPath_assign_of_leadApart assigned apart).trans
                (atPath_assignable model.context (Text.dottedParts_ne_nil other))
            refine ⟨kept, fun isOther surroundings => ?_⟩
            rw [evalExpression_reference isOther, evalExpression_reference isOther]
            exact congrArg Except.ok kept

/-- The bill of an order that has been paid. -/
def bill : DataModel :=
  .ofContext (.object [("order", .object [("total", .ofNat 12)]), ("paid", .bool true)])

/-- The total is written beside itself, at a path with an empty part, and nothing is written
below the mark that the bill has been paid. -/
theorem total_is_copied :
    ((bill.evalExpression .bare "ctx.order.total").1 = .ok (.ofNat 12) ∧
      Text.IsFieldPath "order..copy" ∧ Text.IsFieldPath "paid.when") ∧
    let copied := bill.execute .bare (.assign "ctx.order..copy" "ctx.order.total")
    copied.1 = .ok () ∧
      (copied.2.evalExpression .bare "ctx.order..copy").1 = .ok (.ofNat 12) ∧
      (copied.2.evalExpression .bare "ctx.paid").1 = .ok (.bool true) ∧
      (∃ fault, (bill.execute .bare (.assign "ctx.paid.when" "ctx.order.total")).1 =
        .error fault) := by
  have evaluates : (bill.evalExpression .bare "ctx.order.total").1 = .ok (.ofNat 12) := rfl
  have isPath : Text.IsFieldPath "order..copy" := by decide
  have isBlocked : Text.IsFieldPath "paid.when" := by decide
  obtain ⟨-, -, writes⟩ := assignment_writes_or_fails bill .bare evaluates isPath
  obtain ⟨fails_iff, -, -⟩ := assignment_writes_or_fails bill .bare evaluates isBlocked
  have succeeds : (bill.execute .bare (.assign "ctx.order..copy" "ctx.order.total")).1 = .ok () :=
    rfl
  obtain ⟨reads, keeps⟩ := writes succeeds
  refine ⟨⟨evaluates, isPath, isBlocked⟩, succeeds, reads .bare, ?_, fails_iff.2 ⟨rfl, ?_⟩⟩
  · exact (keeps "paid" (by decide)).2 (by decide) .bare
  · exact ⟨["paid"], by decide, by decide, by decide, .bool true, rfl, rfl⟩

end DataModel

end Statechart
