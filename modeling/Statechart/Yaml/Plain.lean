import Statechart.Yaml.Gap

/-!
# Plain scalars

A scalar without quotes begins with any character that has no meaning of its
own, and ends before a colon and a blank, before a comment, and before a line
that is not indented enough.  Inside brackets and braces it also ends at their
marks and at a comma, and its lines may be indented as they like.
-/

namespace Statechart

namespace Yaml

/-- The marks of sequences in brackets and mappings in braces. -/
def isFlowMark (c : Char) : Bool :=
  c == ',' || c == '[' || c == ']' || c == '\x7b' || c == '\x7d'

/-- The characters with a meaning of their own at the beginning of a scalar. -/
def isIndicator (c : Char) : Bool :=
  isFlowMark c || "#&*!|>'\"%@\x60".toList.contains c

/-- Whether a plain scalar may begin with a character. -/
def mayBeginPlain (isFlow : Bool) (c : Char) (rest : List Char) : Bool :=
  if c == '-' then !rest.head?.any isSpace
  else if c == '?' || c == ':' then !isFlow && !isSeparated rest
  else !isSpace c && !isBreak c && !isIndicator c

/-- A scalar that has been read, whether it ended after a line break, and what
follows it. -/
structure PlainScalar where
  text : String
  isBroken : Bool
  cursor : Cursor

/-- Whether a plain scalar does not go on after a gap. -/
def endsAtGap (isFlow : Bool) (least : Nat) (gap : Gap) (place : Place) (input : List Char) :
    Bool :=
  gap.isOpen &&
    (input.head? == some '#' || isDocumentMark place input || (!isFlow && place.column < least))

/-- Whether a plain scalar ends before a character. -/
def endsPlain (isFlow : Bool) (c : Char) (rest : List Char) : Bool :=
  (c == ':' && isSeparated rest) || (isFlow && isFlowMark c)

/-- Whether a character may not stand in a plain scalar: a colon before a mark
inside brackets or braces. -/
def isMisplacedColon (isFlow : Bool) (c : Char) (rest : List Char) : Bool :=
  isFlow && c == ':' && rest.head?.any (fun next => next == '?' || isFlowMark next)

/-- Reads on in a plain scalar whose lines are indented by at least `least`, with
the text so far and the gap after it. -/
def readPlain? (isFlow : Bool) (least : Nat) (text : String) (gap : Gap) (place : Place) :
    List Char → Option PlainScalar
  | [] => some ⟨text, gap.isBroken, ⟨place, []⟩⟩
  | c :: rest =>
    if isSpace c || isBreak c then
      if c == '\t' && gap.isBroken && place.column < least then none
      else readPlain? isFlow least text (gap.push c) (place.after c) rest
    else if endsAtGap isFlow least gap place (c :: rest) then
      some ⟨text, gap.isBroken, ⟨place, c :: rest⟩⟩
    else if isMisplacedColon isFlow c rest then
      none
    else if endsPlain isFlow c rest then
      some ⟨text, gap.isBroken, ⟨place, c :: rest⟩⟩
    else
      readPlain? isFlow least ((text ++ gap.fill).push c) .nothing (place.after c) rest

end Yaml

end Statechart
