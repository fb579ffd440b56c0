import Statechart.Yaml.Gap

/-!
# Scalars of indented lines

After a bar the lines of a scalar are kept as they stand, after an angle bracket
they are joined like those of a plain scalar.  The first line with content tells
how far the lines are indented, unless a digit after the mark does.  A sign
after the mark tells whether the line breaks at the end are kept or dropped.
-/

namespace Statechart

namespace Yaml

/-- What becomes of the line breaks at the end of a scalar: all but the first
are dropped unless a sign says otherwise. -/
inductive Chomping where
  | strip
  | clip
  | keep
deriving DecidableEq, Repr

/-- The sign at the beginning of some characters, and what follows it. -/
def cutChomping : List Char → Chomping × List Char
  | '+' :: rest => (.keep, rest)
  | '-' :: rest => (.strip, rest)
  | rest => (.clip, rest)

/-- The digit other than zero at the beginning of some characters, and what
follows it. -/
def cutIndent : List Char → Option Nat × List Char
  | [] => (none, [])
  | c :: rest =>
    if c.isDigit && c != '0' then (some (c.toNat - '0'.toNat), rest) else (none, c :: rest)

/-- The sign and the digit after a mark, in either order, and what follows. -/
def cutHeader (input : List Char) : (Chomping × Option Nat) × List Char :=
  match cutChomping input with
  | (.clip, rest) =>
    let (indent, rest) := cutIndent rest
    let (chomping, rest) := if indent.isSome then cutChomping rest else (.clip, rest)
    ((chomping, indent), rest)
  | (chomping, rest) =>
    let (indent, rest) := cutIndent rest
    ((chomping, indent), rest)

/-- The end of the line on which a header stands, none if anything but a comment
follows the header. -/
def skipHeaderLine? (place : Place) (input : List Char) : Option Cursor :=
  let content := input.dropWhile isSpace
  if content.head?.all (fun c => c == '#' || isBreak c) then
    match content.dropWhile (!isBreak ·) with
    | [] => some ⟨place.along input.length, []⟩
    | c :: rest => some ⟨(place.along (input.length - rest.length - 1)).after c, rest⟩
  else
    none

/-- Line breaks between the lines of a scalar, the greatest column reached in
empty lines, and what follows. -/
structure EmptyLines where
  deepest : Nat
  breaks : String
  cursor : Cursor

/-- Reads on in empty lines and in the indentation of the line after them, which
goes up to a column if that is known.  A tab may not stand in it. -/
def readEmptyLines? (indent : Option Nat) (deepest : Nat) (breaks : String) (place : Place) :
    List Char → Option EmptyLines
  | [] => some ⟨max deepest place.column, breaks, ⟨place, []⟩⟩
  | c :: rest =>
    let deepest := max deepest place.column
    let isInside := indent.all (place.column < ·)
    if c == ' ' && isInside then
      readEmptyLines? indent deepest breaks (place.after c) rest
    else if c == '\t' && isInside then
      none
    else if isBreak c then
      readEmptyLines? indent deepest (breaks.push c) (place.after c) rest
    else
      some ⟨deepest, breaks, ⟨place, c :: rest⟩⟩

/-- The text of the lines so far, the break after the last of them and those of
the empty lines after that. -/
structure BlockText where
  text : String := ""
  lastBreak : String := ""
  emptyBreaks : String
  /-- Whether the last line began with a blank. -/
  wasIndented : Bool := false

namespace BlockText

def joined (block : BlockText) (isFolded isIndented : Bool) : String :=
  if isFolded && block.lastBreak == "\n" && !block.wasIndented && !isIndented then
    block.text ++ (if block.emptyBreaks.isEmpty then " " else block.emptyBreaks)
  else
    block.text ++ block.lastBreak ++ block.emptyBreaks

def chomped (block : BlockText) : Chomping → String
  | .strip => block.text
  | .clip => block.text ++ block.lastBreak
  | .keep => block.text ++ block.lastBreak ++ block.emptyBreaks

end BlockText

/-- Reads on in lines with an indentation, within a number of lines. -/
def readLines? (isFolded : Bool) (indent : Nat) :
    Nat → BlockText → Cursor → Option (BlockText × Cursor)
  | 0, _, _ => none
  | limit + 1, block, cursor =>
    if cursor.place.column != indent || cursor.rest.isEmpty then
      some (block, cursor)
    else
      let line := cursor.rest.takeWhile (!isBreak ·)
      let after := cursor.rest.drop line.length
      let isIndented := line.head?.any isSpace
      let text := block.joined isFolded isIndented ++ String.ofList line
      let place := cursor.place.along line.length
      match after with
      | [] =>
        some ({ text, emptyBreaks := "", wasIndented := isIndented }, ⟨place, []⟩)
      | c :: rest => do
        let empty ← readEmptyLines? (some indent) 0 "" (place.after c) rest
        readLines? isFolded indent limit
          { text, lastBreak := c.toString, emptyBreaks := empty.breaks, wasIndented := isIndented }
          empty.cursor

/-- Reads a scalar after its mark, whose lines are indented by at least `least`.
A digit in its header counts from `outer`. -/
def readBlockScalar? (isFolded : Bool) (least outer : Nat) (cursor : Cursor) :
    Option (String × Cursor) := do
  let ((chomping, increment), rest) := cutHeader cursor.rest
  let place := cursor.place.along (cursor.rest.length - rest.length)
  let start ← skipHeaderLine? place rest
  let given := increment.map (outer + ·)
  let empty ← readEmptyLines? given 0 "" start.place start.rest
  let indent := given.getD (max (max empty.deepest least) 1)
  let (block, after) ←
    readLines? isFolded indent (start.rest.length + 1) { emptyBreaks := empty.breaks } empty.cursor
  return (block.chomped chomping, after)

end Yaml

end Statechart
