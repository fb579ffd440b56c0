import Statechart.Definition.Outline
import Statechart.Yaml.Reader
import Statechart.Yaml.Scalar

/-!
# Definitions in YAML

A definition may also be written in YAML.  Where a definition asks for a text, a
plain scalar is a text even if it looks like a number; where it asks for a list
or a record, nothing at all stands for one without content.  Inside actions
every plain scalar is what it looks like, and an integer as a key is the number
of a field.
-/

namespace Statechart

namespace Definition

/-- The greatest number of sequences and mappings within each other. -/
def yamlDepthLimit : Nat :=
  128

def scalarValue? (role : Role) (text : String) (isPlain : Bool) : Option Json.Value :=
  match role with
  | .text => some (if isPlain && Yaml.isVoid text then .null else .string text)
  | .requiredText | .choice => some (.string text)
  | .flag => if isPlain then (Yaml.truth? text).map .bool else none
  | .records _ | .block false => if isPlain && text.isEmpty then some (.array []) else none
  | .record _ => if isPlain && text.isEmpty then some .emptyObject else none
  | .optionalRecord _ => if isPlain && Yaml.isVoid text then some .null else none
  | .block true | .action _ | .anything =>
    if isPlain then Yaml.plainValue? text else some (.string text)

/-- The role of the items of a sequence in some role. -/
def Role.ofItems? : Role → Option Role
  | .records kind => some (.record kind)
  | .block isInside => some (.action isInside)
  | .anything => some .anything
  | _ => none

def roleOfField (kind : Action.Kind) (name : String) : Role :=
  if kind = .choose ∧ (name = "then" ∨ name = "else") then .block true else .anything

/-- The field of an action that a key names, none if no field can have the key. -/
def fieldOfKey? (kind : Action.Kind) : Yaml.Node → Option String
  | .scalar text isPlain => do
    match ← scalarValue? .anything text isPlain with
    | .string name => some name
    | .number (.natural n) => some (kind.fields[n.toNat]?.getD "")
    | _ => none
  | _ => none

/-- Whether a key is the one of an action's kind. -/
def isKindKey (key : Yaml.Node) : Bool :=
  key.text? == some "action"

/-- The kind of an action that a node names: a text, or inside another action
what it looks like. -/
def kindOfNode? (isInside : Bool) : Yaml.Node → Option Action.Kind
  | .scalar text isPlain => do
    let role : Role := if isInside then .anything else .requiredText
    Action.Kind.ofJson? isInside (← scalarValue? role text isPlain)
  | _ => none

def kindOfEntries? (isInside : Bool) (entries : List (Yaml.Node × Yaml.Node)) :
    Option Action.Kind :=
  match entries.filter (fun entry => isKindKey entry.1) with
  | [(_, node)] => kindOfNode? isInside node
  | _ => none

/-- Adds a field unless there is one with its name. -/
def addField? (name : String) (value : Json.Value) (fields : List (String × Json.Value)) :
    Option (List (String × Json.Value)) :=
  if Entries.contains name fields then none else some (Entries.insert name value fields)

mutual

/-- The JSON value of a node in some role, with at most `depth` sequences and
mappings within each other. -/
def valueOfNode? (role : Role) : Nat → Yaml.Node → Option Json.Value
  | _, .scalar text isPlain => scalarValue? role text isPlain
  | 0, _ => none
  | depth + 1, .sequence items =>
    match role, items with
    | .action isInside, tag :: rest => do
      let kind ← kindOfNode? isInside tag
      let values ← valuesOfFields? (kind.fields.map (roleOfField kind)) depth rest
      return .array (.string kind.name :: values)
    | role, items => do return .array (← valuesOfItems? (← role.ofItems?) depth items)
  | depth + 1, .mapping entries =>
    match role with
    | .record kind | .optionalRecord kind => (fieldsOfRecord? kind depth entries).map .object
    | .action isInside => do
      let kind ← kindOfEntries? isInside entries
      let fields ← fieldsOfAction? kind depth entries
      return .object (Entries.insert "action" (.string kind.name) fields)
    | .anything => if areValues depth entries then some .emptyObject else none
    | _ => none

def valuesOfItems? (role : Role) (depth : Nat) : List Yaml.Node → Option (List Json.Value)
  | [] => some []
  | item :: rest => do
    let value ← valueOfNode? role depth item
    let others ← valuesOfItems? role depth rest
    return value :: others

/-- The values of fields by their places, of which the last ones may be left out. -/
def valuesOfFields? (roles : List Role) (depth : Nat) :
    List Yaml.Node → Option (List Json.Value)
  | [] => some []
  | node :: rest => do
    let value ← valueOfNode? (← roles.head?) depth node
    let others ← valuesOfFields? roles.tail depth rest
    return value :: others

def fieldsOfRecord? (kind : RecordKind) (depth : Nat) :
    List (Yaml.Node × Yaml.Node) → Option (List (String × Json.Value))
  | [] => some []
  | (key, node) :: rest => do
    let name ← key.text?
    let others ← fieldsOfRecord? kind depth rest
    match kind.role? name with
    | some role => addField? name (← valueOfNode? role depth node) others
    | none => return others

/-- The fields that an action reads.  Those that it does not read have to have
values as well. -/
def fieldsOfAction? (kind : Action.Kind) (depth : Nat) :
    List (Yaml.Node × Yaml.Node) → Option (List (String × Json.Value))
  | [] => some []
  | (key, node) :: rest => do
    let others ← fieldsOfAction? kind depth rest
    if isKindKey key then return others
    let name ← fieldOfKey? kind key
    let value ← valueOfNode? (roleOfField kind name) depth node
    if kind.fields.contains name then addField? name value others else return others

/-- Whether all keys and values have a value.  In a mapping that no role reads
nothing else matters. -/
def areValues (depth : Nat) : List (Yaml.Node × Yaml.Node) → Bool
  | [] => true
  | (key, node) :: rest =>
    (valueOfNode? .anything depth key).isSome && (valueOfNode? .anything depth node).isSome &&
      areValues depth rest

end

def ofYaml? (text : String) : Option Definition := do
  ofJson? (← valueOfNode? (.record .chart) yamlDepthLimit (← Yaml.parse? text))

end Definition

end Statechart
