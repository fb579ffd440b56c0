/-!
# YAML nodes

What a YAML text holds: scalars, sequences and mappings.  A scalar remembers
whether it stood without quotes, because only then can it be anything but a
text.
-/

namespace Statechart

namespace Yaml

/-- A node of a YAML text. -/
inductive Node where
  | scalar (text : String) (isPlain : Bool)
  | sequence (items : List Node)
  /-- The keys and values in the order of the text. -/
  | mapping (entries : List (Node × Node))
deriving Inhabited, Repr

namespace Node

def empty : Node :=
  scalar "" true

def isEmpty : Node → Bool
  | scalar text isPlain => text.isEmpty && isPlain
  | _ => false

/-- The text of a scalar, with quotes or without. -/
def text? : Node → Option String
  | scalar text _ => some text
  | _ => none

def plainText? : Node → Option String
  | scalar text true => some text
  | _ => none

/-- The entries of a mapping whose keys are texts; where nothing is written there
are none. -/
def entries? : Node → Option (List (String × Node))
  | mapping entries => entries.mapM (fun (key, value) => return (← key.text?, value))
  | node => if node.isEmpty then some [] else none

end Node

end Yaml

end Statechart
