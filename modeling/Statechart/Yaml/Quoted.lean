import Statechart.Text.Digits
import Statechart.Yaml.Gap

/-!
# Quoted scalars

Between apostrophes only the apostrophe is written specially, twice; between
quotes a backslash begins an escape.  Both may go over several lines.
-/

namespace Statechart

namespace Yaml

/-- Reads on after the opening apostrophe, with the text so far and the gap
after it. -/
def readSingleQuoted? (text : String) (gap : Gap) (place : Place) :
    List Char → Option (String × Cursor)
  | [] => none
  | '\x27' :: '\x27' :: rest =>
    readSingleQuoted? ((text ++ gap.fill).push '\x27') .nothing (place.along 2) rest
  | c :: rest =>
    if isSpace c || isBreak c then
      readSingleQuoted? text (gap.push c) (place.after c) rest
    else if isDocumentMark place (c :: rest) then
      none
    else if c == '\x27' then
      some (text ++ gap.fill, ⟨place.after c, rest⟩)
    else
      readSingleQuoted? ((text ++ gap.fill).push c) .nothing (place.after c) rest

def letterEscape? (c : Char) : Option Char :=
  [('0', '\x00'), ('a', '\x07'), ('b', '\x08'), ('t', '\t'), ('\t', '\t'), ('n', '\n'),
    ('v', '\x0b'), ('f', '\x0c'), ('r', '\r'), ('e', '\x1b'), (' ', ' '), ('"', '"'),
    ('/', '/'), ('\\', '\\'), ('N', '\u0085'), ('_', '\u00a0'), ('L', '\u2028'),
    ('P', '\u2029')].lookup c

/-- How many digits follow a backslash and a letter. -/
def digitsOfEscape? (c : Char) : Option Nat :=
  [('x', 2), ('u', 4), ('U', 8)].lookup c

def charOfDigits? (digits : List Char) : Option Char := do
  let code ← Text.numberOfDigits? 16 digits
  if code.isValidChar then some (Char.ofNat code) else none

/-- Reads on after the opening quote, where `pending` hexadecimal digits of a
character are still to come after those found. -/
def readDoubleQuoted? (text : String) (gap : Gap) (place : Place) (pending : Nat)
    (digits : List Char) : List Char → Option (String × Cursor)
  | [] => none
  | c :: rest =>
    match pending with
    | 0 =>
      if isSpace c || isBreak c then
        readDoubleQuoted? text (gap.push c) (place.after c) 0 [] rest
      else if isDocumentMark place (c :: rest) then
        none
      else if c == '"' then
        some (text ++ gap.fill, ⟨place.after c, rest⟩)
      else if c == '\\' then
        match rest with
        | [] => none
        | letter :: rest =>
          let text := text ++ gap.fill
          let place := (place.after c).after letter
          if isBreak letter then
            readDoubleQuoted? text (.breaks none "") place 0 [] rest
          else
            match letterEscape? letter, digitsOfEscape? letter with
            | some plain, _ => readDoubleQuoted? (text.push plain) .nothing place 0 [] rest
            | none, some count => readDoubleQuoted? text .nothing place count [] rest
            | none, none => none
      else
        readDoubleQuoted? ((text ++ gap.fill).push c) .nothing (place.after c) 0 [] rest
    | 1 =>
      match charOfDigits? (digits ++ [c]) with
      | some plain => readDoubleQuoted? (text.push plain) .nothing (place.after c) 0 [] rest
      | none => none
    | pending + 2 =>
      readDoubleQuoted? text .nothing (place.after c) (pending + 1) (digits ++ [c]) rest

end Yaml

end Statechart
