import Statechart.Yaml.Plain
import Statechart.Yaml.Scalar

/-!
# Writing scalars

A text of several lines is written line by line after a bar.  Another text is
written without quotes where it then reads back as the same text, and between
apostrophes where it would read as something else.  What neither can hold is
written between quotes.
-/

namespace Statechart

namespace Yaml

def isPrintable (c : Char) : Bool :=
  let code := c.toNat
  c == '\n' || (0x20 ≤ code && code ≤ 0x7e) ||
    (0xa0 ≤ code && code ≤ 0xfffd && code != 0xfeff) || 0x10000 ≤ code

/-- Each character with the one before it and those after it. -/
def neighbours : Option Char → List Char → List (Option Char × Char × List Char)
  | _, [] => []
  | before, c :: rest => (before, c, rest) :: neighbours (some c) rest

/-- Whether a character begins a mark where it stands, so that it needs quotes. -/
def isMisread : Option Char × Char × List Char → Bool
  | (none, c, rest) =>
    isIndicator c || ((c == '-' || c == '?' || c == ':') && isSeparated rest)
  | (some before, c, rest) =>
    (c == ':' && isSeparated rest) || (c == '#' && isSeparated [before])

/-- Whether two neighbours are a line break and a blank, in this order. -/
def isBreakAndBlank (first second : Char) : Bool :=
  isBreak first && second == ' '

def anyNeighbours (property : Char → Char → Bool) (text : List Char) : Bool :=
  (text.zip (text.drop 1)).any (fun pair => property pair.1 pair.2)

/-- Whether a text can be written without quotes. -/
def admitsPlain (text : List Char) : Bool :=
  !text.any isBreak && text.head? != some ' ' && text.getLast? != some ' ' &&
    text.take 3 != "---".toList && text.take 3 != "...".toList &&
    !(neighbours none text).any isMisread

/-- Whether a text can be written line by line or between apostrophes. -/
def admitsLines (text : List Char) : Bool :=
  text.all isPrintable && !anyNeighbours (fun first second => isBreakAndBlank second first) text

/-- Whether a plain scalar stands for a text.  Digits after a leading zero do,
but are taken for a number by others. -/
def isClearText (text : String) : Bool :=
  !isVoid text && (truth? text).isNone && !isNumber text && !hasLeadingZero text

/-- The digits of a character's code, as many as `width` says. -/
def codeDigits (width code : Nat) : String :=
  let digits := Nat.toDigits 16 code
  String.ofList ((List.replicate (width - digits.length) '0' ++ digits).map Char.toUpper)

/-- The escape of a character that has a letter of its own. -/
def letterOf? (c : Char) : Option Char :=
  [('\x00', '0'), ('\x07', 'a'), ('\x08', 'b'), ('\t', 't'), ('\n', 'n'), ('\x0b', 'v'),
    ('\x0c', 'f'), ('\r', 'r'), ('\x1b', 'e'), ('"', '"'), ('\\', '\\'), ('\u0085', 'N'),
    ('\u2028', 'L'), ('\u2029', 'P')].lookup c

def quotedChar (c : Char) : String :=
  match letterOf? c with
  | some letter => "\\".push letter
  | none =>
    if isPrintable c then c.toString
    else if c.toNat ≤ 0xff then "\\x" ++ codeDigits 2 c.toNat
    else if c.toNat ≤ 0xffff then "\\u" ++ codeDigits 4 c.toNat
    else "\\U" ++ codeDigits 8 c.toNat

def doubleQuoted (text : List Char) : String :=
  "\"" ++ String.join (text.map quotedChar) ++ "\""

/-- Characters with an indentation after the line breaks. -/
def indented (indent : Nat) (isAfterBreak : Bool) : List Char → List Char
  | [] => []
  | c :: rest =>
    if isBreak c then c :: indented indent true rest
    else if isAfterBreak then List.replicate indent ' ' ++ c :: indented indent false rest
    else c :: indented indent false rest

/-- A text between apostrophes, each apostrophe in it written twice. -/
def singleQuoted (indent : Nat) (text : List Char) : String :=
  let content := indented indent false (text.flatMap (fun c => if c == '\x27' then [c, c] else [c]))
  let last := if text.getLast?.any isBreak then List.replicate indent ' ' else []
  "\x27" ++ String.ofList (content ++ last) ++ "\x27"

/-- The header of lines: a digit where the first one begins with a blank or is
empty, and a sign unless the text ends with one line break. -/
def linesHeader (text : List Char) : String :=
  let digit := if text.head?.any (fun c => c == ' ' || isBreak c) then "2" else ""
  let sign :=
    match text.reverse with
    | last :: others =>
      if !isBreak last then "-"
      else if others.head?.all isBreak then "+"
      else ""
    | [] => "-"
  "|" ++ digit ++ sign

/-- A text as the value of an entry, up to the end of the line.  Further lines of
it are indented by `indent`. -/
def scalarText (indent : Nat) (text : String) : String :=
  let chars := text.toList
  let isSingle := admitsLines chars && !anyNeighbours isBreakAndBlank chars
  if chars.contains '\n' then
    if admitsLines chars && chars.getLast? != some ' ' then
      linesHeader chars ++ "\n" ++ String.ofList (indented indent true chars) ++
        (if chars.getLast?.any isBreak then "" else "\n")
    else
      doubleQuoted chars ++ "\n"
  else if isSingle && admitsPlain chars && isClearText text then
    text ++ "\n"
  else if isSingle then
    singleQuoted indent chars ++ "\n"
  else
    doubleQuoted chars ++ "\n"

end Yaml

end Statechart
