import Statechart.Yaml.Cursor

/-!
# Gaps between the parts of a scalar

A scalar may go over several lines.  Blanks within a line stay as they are; a
line break becomes a blank, or goes away where empty lines follow it, and the
blanks around it go away.
-/

namespace Statechart

namespace Yaml

/-- What stands between two parts of a scalar. -/
inductive Gap where
  | nothing
  | blanks (content : String)
  /-- The first line break, unless it was escaped, and the others. -/
  | breaks (first : Option Char) (others : String)

namespace Gap

def push (gap : Gap) (c : Char) : Gap :=
  match gap with
  | nothing => if isBreak c then breaks (some c) "" else blanks c.toString
  | blanks content => if isBreak c then breaks (some c) "" else blanks (content.push c)
  | breaks first others => breaks first (if isBreak c then others.push c else others)

/-- What a gap stands for in the text of the scalar. -/
def fill : Gap → String
  | nothing => ""
  | blanks content => content
  | breaks none others => others
  | breaks (some first) others =>
    if first != '\n' then first.toString ++ others
    else if others.isEmpty then " "
    else others

def isOpen : Gap → Bool
  | nothing => false
  | _ => true

def isBroken : Gap → Bool
  | breaks _ _ => true
  | _ => false

end Gap

end Yaml

end Statechart
