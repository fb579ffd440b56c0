import Statechart.Action
import Statechart.Guard.Reader
import Statechart.Json.Reader

/-!
# The data model

The data model holds one JSON value, the context, and the guards that it has
parsed.  Conditions are guards.  A value expression is a JSON text, a field, a
text between single quotes, or a guard.  Assignments put values below the
context and create objects on the way.
-/

namespace Statechart

/-- Why an expression cannot be evaluated. -/
inductive ExpressionCause where
  | notAGuard (flaw : Guard.Flaw)
  | notAnExpression (flaw : Guard.Flaw)
  | empty
  | badLocation
  | notAnObject (part : String)
  | scriptUnsupported
deriving DecidableEq, Repr

def ExpressionCause.message : ExpressionCause → String
  | .notAGuard flaw => flaw.message
  | .notAnExpression flaw => "cannot evaluate: " ++ flaw.message
  | .empty => "empty expression"
  | .badLocation => "location must start with 'ctx.'"
  | .notAnObject part => s!"cannot assign below non-object at '{part}'"
  | .scriptUnsupported => "script blocks are not supported by the JSON data model"

/-- A failed evaluation: the text that failed, and why. -/
structure ExpressionFault where
  text : String
  cause : ExpressionCause
deriving DecidableEq, Repr

def ExpressionFault.message (fault : ExpressionFault) : String :=
  s!"{fault.cause.message} (in '{fault.text}')"

/-- A context and the guards parsed so far, by their exact texts. -/
structure DataModel where
  context : Json.Value := .null
  guards : List (String × Guard) := []
deriving Inhabited

namespace Json.Value

/-- Puts a value at the end of a path of field names, creating objects on the
way.  Fails at the part that would go below something that is no object, and
leaves what it has come to by then. -/
def assign : Json.Value → List String → Json.Value → Except String Unit × Json.Value
  | _, [], value => (.ok (), value)
  | .object fields, name :: rest, value =>
    let (outcome, inner) := ((Entries.find? name fields).getD emptyObject).assign rest value
    (outcome, .object (Entries.set name inner fields))
  | target, name :: _, _ => (.error name, target)

end Json.Value

namespace DataModel

/-- A data model with a context; `null` stands for the empty object. -/
def ofContext (context : Json.Value) : DataModel :=
  { context := if context.isNull then .emptyObject else context }

def cachedGuards (model : DataModel) : Nat :=
  model.guards.length

def guard (model : DataModel) (text : String) : Except Guard.Flaw Guard × DataModel :=
  match Entries.find? text model.guards with
  | some known => (.ok known, model)
  | none =>
    match Guard.parse text with
    | .error flaw => (.error flaw, model)
    | .ok parsed => (.ok parsed, { model with guards := Entries.insert text parsed model.guards })

def evalCondition (model : DataModel) (around : Surroundings) (text : String) :
    Except ExpressionFault Bool × DataModel :=
  match model.guard text with
  | (.error flaw, model) =>
    (.error ⟨String.ofList (Text.trimChars text.toList), .notAGuard flaw⟩, model)
  | (.ok parsed, model) => (.ok (parsed.holds model.context around), model)

/-- The field that a text refers to, if it is nothing but a field. -/
def fieldReference? (text : String) : Option Field :=
  let field (root : FieldRoot) (path : String) : Option Field :=
    if path.toList.isEmpty || !path.toList.all Text.isPathChar then none else some ⟨root, path⟩
  match Text.after? "ctx." text with
  | some path => field .context path
  | none =>
    match Text.after? "_event." text with
    | some path => field .event path
    | none => none

def singleQuoted? (text : String) : Option String :=
  match text.toList with
  | '\'' :: rest =>
    match rest.reverse with
    | '\'' :: content => some (String.ofList content.reverse)
    | _ => none
  | _ => none

def evalExpression (model : DataModel) (around : Surroundings) (text : String) :
    Except ExpressionFault Json.Value × DataModel :=
  let trimmed := Text.trim text
  if trimmed.toList.isEmpty then
    (.error ⟨text, .empty⟩, model)
  else
    match Json.parse? trimmed with
    | some value => (.ok value, model)
    | none =>
    match fieldReference? trimmed with
    | some field => (.ok (field.resolve model.context around), model)
    | none =>
    match singleQuoted? trimmed with
    | some content => (.ok (.string content), model)
    | none =>
    match model.guard trimmed with
    | (.error flaw, model) => (.error ⟨text, .notAnExpression flaw⟩, model)
    | (.ok parsed, model) => (.ok (.bool (parsed.holds model.context around)), model)

def locationParts? (location : String) : Option (List String) :=
  match Text.after? "ctx." (Text.trim location) with
  | none => none
  | some path => if path.toList.isEmpty then none else some (Text.dottedParts path)

/-- Puts a value at a location.  A context that is no object gives way to an
empty object first. -/
def assign (model : DataModel) (location : String) (value : Json.Value) :
    Except ExpressionFault Unit × DataModel :=
  match locationParts? location with
  | none => (.error ⟨location, .badLocation⟩, model)
  | some parts =>
    let target := if model.context.isObject then model.context else .emptyObject
    let (outcome, context) := target.assign parts value
    (outcome.mapError fun part => ⟨location, .notAnObject part⟩, { model with context })

/-- Runs an assignment or a script.  Other actions need the machine and do
nothing here. -/
def execute (model : DataModel) (around : Surroundings) :
    Action → Except ExpressionFault Unit × DataModel
  | .assign location expression =>
    match model.evalExpression around expression with
    | (.error fault, model) => (.error fault, model)
    | (.ok value, model) => model.assign location value
  | .script body => (.error ⟨body, .scriptUnsupported⟩, model)
  | .log _ _ | .raise _ | .choose _ _ _ => (.ok (), model)

end DataModel

end Statechart
