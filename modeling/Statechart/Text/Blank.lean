/-!
# Blank characters and the words between them

Ids in a target list, descriptors in an event pattern and the parts of a
dotted path are separated by characters of one class.  This file holds the
class of blank characters (the Unicode property `White_Space`), trimming, and
the cutting of a text at every character of a class.
-/

namespace Statechart

namespace Text

/-- The characters with the Unicode property `White_Space`. -/
def isBlank (c : Char) : Bool :=
  let code := c.toNat
  (0x09 ≤ code && code ≤ 0x0d) || code == 0x20 || code == 0x85 || code == 0xa0 ||
    code == 0x1680 || (0x2000 ≤ code && code ≤ 0x200a) || code == 0x2028 ||
    code == 0x2029 || code == 0x202f || code == 0x205f || code == 0x3000

/-- The characters without the blanks before the first other character. -/
def skipBlanks (input : List Char) : List Char :=
  input.dropWhile isBlank

/-- The characters without the blanks at either end. -/
def trimChars (input : List Char) : List Char :=
  (skipBlanks (skipBlanks input).reverse).reverse

def trim (text : String) : String :=
  String.ofList (trimChars text.toList)

/-- A text of blanks only; the empty text is one. -/
def isBlankText (text : String) : Bool :=
  text.toList.all isBlank

/-- The pieces between the characters of a class.  There is always one more
piece than there are such characters, so pieces may be empty. -/
def pieces (cut : Char → Bool) : List Char → List (List Char)
  | [] => [[]]
  | c :: rest =>
    if cut c then
      [] :: pieces cut rest
    else
      match pieces cut rest with
      | [] => [[c]]
      | piece :: others => (c :: piece) :: others

def words (text : String) : List String :=
  ((pieces isBlank text.toList).filter (fun piece => !piece.isEmpty)).map String.ofList

/-- The parts of a dotted path; two dots in a row enclose an empty part. -/
def dottedParts (path : String) : List String :=
  (pieces (· == '.') path.toList).map String.ofList

/-- What stands before and after the first character of a class, if there is one. -/
def cutAtFirst (cut : Char → Bool) (text : String) : Option (String × String) :=
  let before := text.toList.takeWhile (fun c => !cut c)
  match text.toList.drop before.length with
  | [] => none
  | _ :: after => some (String.ofList before, String.ofList after)

/-- What follows a given beginning, if the text has that beginning. -/
def after? (beginning text : String) : Option String :=
  if beginning.toList.isPrefixOf text.toList then
    some (String.ofList (text.toList.drop beginning.toList.length))
  else
    none

def startsWith (beginning text : String) : Bool :=
  beginning.toList.isPrefixOf text.toList

theorem pieces_ne_nil (cut : Char → Bool) (input : List Char) : pieces cut input ≠ [] := by
  cases input with
  | nil => simp [pieces]
  | cons c rest =>
    by_cases isCut : cut c
    · simp [pieces, isCut]
    · cases remaining : pieces cut rest <;> simp [pieces, isCut, remaining]

theorem eq_nil_of_mem_pieces {cut : Char → Bool} {input : List Char}
    (allCut : ∀ c ∈ input, cut c = true) : ∀ piece ∈ pieces cut input, piece = [] := by
  induction input with
  | nil => simp [pieces]
  | cons c rest ih =>
    rw [pieces, if_pos (allCut c List.mem_cons_self)]
    intro piece member
    rcases List.mem_cons.1 member with isFirst | later
    · exact isFirst
    · exact ih (fun other isRest => allCut other (List.mem_cons_of_mem c isRest)) piece later

/-- There are no words in a blank text. -/
theorem words_eq_nil {text : String} (blank : isBlankText text = true) : words text = [] := by
  have empty := eq_nil_of_mem_pieces (List.all_eq_true.1 blank)
  rw [words, List.map_eq_nil_iff, List.filter_eq_nil_iff]
  intro piece member
  simp [empty piece member]

end Text

end Statechart
