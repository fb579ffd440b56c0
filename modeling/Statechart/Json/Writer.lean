import Statechart.Json.Value

/-!
# Writing JSON texts

The compact form has no blanks at all.  The spread form puts every item and
every field on a line of its own, two spaces deeper than its container, except
that empty containers stay on one line.
-/

namespace Statechart

namespace Json

def hexDigit (n : Nat) : Char :=
  Nat.digitChar n

/-- Appends one character of a string: quotes, backslashes and controls are
escaped, all else stands for itself. -/
def appendChar (out : String) (c : Char) : String :=
  if c == '"' then out ++ "\\\""
  else if c == '\\' then out ++ "\\\\"
  else if c == '\n' then out ++ "\\n"
  else if c == '\r' then out ++ "\\r"
  else if c == '\t' then out ++ "\\t"
  else if c == '\x08' then out ++ "\\b"
  else if c == '\x0c' then out ++ "\\f"
  else if c.toNat < 0x20 then
    ((out ++ "\\u00").push (hexDigit (c.toNat / 16))).push (hexDigit (c.toNat % 16))
  else out.push c

def appendString (out text : String) : String :=
  (text.toList.foldl appendChar (out.push '"')).push '"'

namespace Value

mutual

def appendCompact (out : String) : Value → String
  | null => out ++ "null"
  | bool true => out ++ "true"
  | bool false => out ++ "false"
  | number n => out ++ n.text
  | string text => appendString out text
  | array [] => out ++ "[]"
  | array (first :: rest) => (appendItems (first.appendCompact (out.push '[')) rest).push ']'
  | object [] => out ++ "\x7b\x7d"
  | object ((name, value) :: rest) =>
    (appendFields (value.appendCompact ((appendString (out.push '\x7b') name).push ':'))
      rest).push '\x7d'

def appendItems (out : String) : List Value → String
  | [] => out
  | item :: rest => appendItems (item.appendCompact (out.push ',')) rest

def appendFields (out : String) : List (String × Value) → String
  | [] => out
  | (name, value) :: rest =>
    appendFields (value.appendCompact ((appendString (out.push ',') name).push ':')) rest

end

def compact (value : Value) : String :=
  value.appendCompact ""

/-- A line break and the spaces before a line at the given depth. -/
def lineStart (depth : Nat) : String :=
  "\n" ++ String.ofList (List.replicate (2 * depth) ' ')

mutual

/-- Appends a value in spread form, inside as many containers as `depth` says. -/
def appendSpread (depth : Nat) (out : String) : Value → String
  | array [] => out ++ "[]"
  | array (first :: rest) =>
    let start := out ++ "[" ++ lineStart (depth + 1)
    appendSpreadItems depth (first.appendSpread (depth + 1) start) rest ++ lineStart depth ++ "]"
  | object [] => out ++ "\x7b\x7d"
  | object ((name, value) :: rest) =>
    let start := appendString (out ++ "\x7b" ++ lineStart (depth + 1)) name ++ ": "
    appendSpreadFields depth (value.appendSpread (depth + 1) start) rest ++
      lineStart depth ++ "\x7d"
  | leaf => leaf.appendCompact out

/-- Appends the items after the first one, each on a line of its own. -/
def appendSpreadItems (depth : Nat) (out : String) : List Value → String
  | [] => out
  | item :: rest =>
    appendSpreadItems depth (item.appendSpread (depth + 1) (out ++ "," ++ lineStart (depth + 1)))
      rest

/-- Appends the fields after the first one, each on a line of its own. -/
def appendSpreadFields (depth : Nat) (out : String) : List (String × Value) → String
  | [] => out
  | (name, value) :: rest =>
    let start := appendString (out ++ "," ++ lineStart (depth + 1)) name ++ ": "
    appendSpreadFields depth (value.appendSpread (depth + 1) start) rest

end

def spread (value : Value) : String :=
  value.appendSpread 0 ""

/-- A value as plain text: strings stand for themselves, all else is compact. -/
def plainText : Value → String
  | string text => text
  | value => value.compact

end Value

end Json

end Statechart
