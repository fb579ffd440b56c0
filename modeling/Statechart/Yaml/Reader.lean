import Statechart.Yaml.Node
import Statechart.Yaml.Token

/-!
# Reading YAML texts

The tokens of a text make up its nodes.  Where a node may stand and none does,
nothing is written.  A text holds one document, whose beginning and end may be
marked.
-/

namespace Statechart

namespace Yaml

/-- Whether no node stands before a token of some list. -/
def isMissing (ends : List Token) (tokens : List Token) : Bool :=
  tokens.head?.all ends.contains

def afterComma? : List Token → Option (List Token)
  | .comma :: rest => some rest
  | _ => none

mutual

/-- Reads a node, within a number of steps.  In a block a sequence may also stand
at the column of the key that it belongs to. -/
def readNode? (isBlock isAtKey : Bool) : Nat → List Token → Option (Node × List Token)
  | 0, _ => none
  | limit + 1, tokens =>
    match tokens with
    | .scalar text isPlain :: rest => some (.scalar text isPlain, rest)
    | .openBracket :: rest => readFlowItems? true [] limit rest
    | .openBrace :: rest => readFlowEntries? true [] limit rest
    | .sequenceStart :: rest => if isBlock then readItems? [] limit rest else none
    | .mappingStart :: rest => if isBlock then readEntries? [] limit rest else none
    | .item :: rest => if isAtKey then readItemsAtKey? [] limit (.item :: rest) else none
    | _ => none

/-- Reads a node unless one of some tokens shows that there is none. -/
def readOptional? (isBlock isAtKey : Bool) (ends : List Token) :
    Nat → List Token → Option (Node × List Token)
  | 0, _ => none
  | limit + 1, tokens =>
    if isMissing ends tokens then some (Node.empty, tokens)
    else readNode? isBlock isAtKey limit tokens

/-- Reads the items of a block; the last one found comes first. -/
def readItems? (found : List Node) : Nat → List Token → Option (Node × List Token)
  | 0, _ => none
  | limit + 1, .item :: rest => do
    let (item, rest) ← readOptional? true false [.item, .blockEnd] limit rest
    readItems? (item :: found) limit rest
  | _ + 1, .blockEnd :: rest => some (.sequence found.reverse, rest)
  | _ + 1, _ => none

/-- Reads items at the column of the key that they belong to. -/
def readItemsAtKey? (found : List Node) : Nat → List Token → Option (Node × List Token)
  | 0, _ => none
  | limit + 1, .item :: rest => do
    let (item, rest) ← readOptional? true false [.item, .key, .value, .blockEnd] limit rest
    readItemsAtKey? (item :: found) limit rest
  | _ + 1, rest => some (.sequence found.reverse, rest)

/-- Reads the entries of a block; the last one found comes first. -/
def readEntries? (found : List (Node × Node)) : Nat → List Token → Option (Node × List Token)
  | 0, _ => none
  | limit + 1, .key :: rest => do
    let (key, rest) ← readOptional? true true [.key, .value, .blockEnd] limit rest
    let (value, rest) ← readValue? true [.key, .value, .blockEnd] limit rest
    readEntries? ((key, value) :: found) limit rest
  | _ + 1, .blockEnd :: rest => some (.mapping found.reverse, rest)
  | _ + 1, _ => none

/-- Reads the value after a colon; without a colon there is none. -/
def readValue? (isBlock : Bool) (ends : List Token) : Nat → List Token → Option (Node × List Token)
  | 0, _ => none
  | limit + 1, .value :: rest => readOptional? isBlock isBlock ends limit rest
  | _ + 1, rest => some (Node.empty, rest)

/-- Reads the items between brackets.  An item may be a single entry. -/
def readFlowItems? (isFirst : Bool) (found : List Node) :
    Nat → List Token → Option (Node × List Token)
  | 0, _ => none
  | _ + 1, .closeBracket :: rest => some (.sequence found.reverse, rest)
  | limit + 1, tokens => do
    let tokens ← if isFirst then some tokens else afterComma? tokens
    match tokens with
    | .closeBracket :: rest => return (.sequence found.reverse, rest)
    | .key :: rest => do
      let (key, rest) ← readOptional? false false [.value, .comma, .closeBracket] limit rest
      let (value, rest) ← readValue? false [.comma, .closeBracket] limit rest
      readFlowItems? false (.mapping [(key, value)] :: found) limit rest
    | tokens => do
      let (item, rest) ← readNode? false false limit tokens
      readFlowItems? false (item :: found) limit rest

/-- Reads the entries between braces.  A node on its own is a key. -/
def readFlowEntries? (isFirst : Bool) (found : List (Node × Node)) :
    Nat → List Token → Option (Node × List Token)
  | 0, _ => none
  | _ + 1, .closeBrace :: rest => some (.mapping found.reverse, rest)
  | limit + 1, tokens => do
    let tokens ← if isFirst then some tokens else afterComma? tokens
    match tokens with
    | .closeBrace :: rest => return (.mapping found.reverse, rest)
    | .key :: rest => do
      let (key, rest) ← readOptional? false false [.value, .comma, .closeBrace] limit rest
      let (value, rest) ← readValue? false [.comma, .closeBrace] limit rest
      readFlowEntries? false ((key, value) :: found) limit rest
    | tokens => do
      let (key, rest) ← readNode? false false limit tokens
      readFlowEntries? false ((key, Node.empty) :: found) limit rest

end

/-- Reads the node of the first document, whose beginning may be marked. -/
def readDocument? (limit : Nat) : List Token → Option (Node × List Token)
  | [] => some (Node.empty, [])
  | .documentStart :: rest =>
    readOptional? true false [.documentStart, .documentEnd] limit rest
  | tokens => readNode? true false limit tokens

/-- The node of a YAML text, none if the text is not one that is read here. -/
def parse? (text : String) : Option Node := do
  let tokens ← Token.ofText? text
  let (node, rest) ← readDocument? (3 * tokens.length + 3) tokens
  if rest.all (· == .documentEnd) then some node else none

end Yaml

end Statechart
