import Statechart.Guard.Reader
import Statechart.Proofs.Blanks

/-!
# The grammar of guards

A guard is spelled in four levels, so that a conjunction binds tighter than a
disjunction and both join to the left:

    disjunction = conjunction | disjunction "||" conjunction
    conjunction = unary | conjunction "&&" unary
    unary       = primary | "!" unary
    primary     = "(" disjunction ")" | "In(" string ")" | "true" | "false" | field
                | field ("==" | "!=") value | field (">" | ">=" | "<" | "<=") number

Blanks may stand between the parts.  What a string may contain is a parameter:
plainly everything but its quote, or with backslashes also the quote.
-/

namespace Statechart

open Text (AreBlanks IsFieldPath)

/-- What a field begins with. -/
def FieldRoot.beginning : FieldRoot → String
  | .context => "ctx."
  | .event => "_event."

def Comparison.sign : Comparison → String
  | .above => ">"
  | .atLeast => ">="
  | .below => "<"
  | .atMost => "<="

namespace Guard

/-- The parts one after the other, with blanks allowed between neighbours. -/
inductive InRow : List (List Char) → List Char → Prop where
  | last (part : List Char) : InRow [part] part
  | next {parts : List (List Char)} {text : List Char} (part : List Char) {blanks : List Char}
      (areBlanks : AreBlanks blanks) (others : InRow parts text) :
      InRow (part :: parts) (part ++ (blanks ++ text))

def SpellsField (text : List Char) (field : Field) : Prop :=
  IsFieldPath field.path ∧ text = field.root.beginning.toList ++ field.path.toList

/-- Text between two equal quotes; both quotes will do. -/
def SpellsString (Content : Char → List Char → Prop) (text : List Char) (content : String) : Prop :=
  ∃ quote, (quote = '"' ∨ quote = '\'') ∧ Content quote content.toList ∧
    text = quote :: (content.toList ++ [quote])

/-- Content that does not contain the quote around it. -/
def Plain (quote : Char) (content : List Char) : Prop :=
  quote ∉ content

/-- Content in which the quote around it follows a backslash wherever it occurs,
and no backslash comes last without another before it. -/
inductive Escaping (quote : Char) : List Char → Prop where
  | nil : Escaping quote []
  | cons {c : Char} {content : List Char} (notQuote : c ≠ quote) (notBackslash : c ≠ '\\')
      (others : Escaping quote content) : Escaping quote (c :: content)
  | escape (c : Char) {content : List Char} (others : Escaping quote content) :
      Escaping quote ('\\' :: c :: content)

/-- An optional minus sign, digits, and optionally a point and digits, with at
least one digit. -/
def SpellsNumber (text : List Char) (x : Float) : Prop :=
  ∃ numeral : Numeral, numeral.digits ≠ [] ∧ (∀ c ∈ numeral.digits, c.isDigit = true) ∧
    text = numeral.chars ∧ x = numeral.value

section

variable (Content : Char → List Char → Prop)

inductive SpellsValue : List Char → Json.Value → Prop where
  | bool (value : Bool) : SpellsValue (toString value).toList (.bool value)
  | null : SpellsValue "null".toList .null
  | string {text : List Char} {content : String} (spelled : SpellsString Content text content) :
      SpellsValue text (.string content)
  | number {text : List Char} {x : Float} (spelled : SpellsNumber text x)
      (finite : x.isFinite = true) : SpellsValue text (.number (.real x))

/-- How tightly the parts of a guard are bound, from the loosest to the tightest. -/
inductive Level where
  | disjunction
  | conjunction
  | unary
  | primary

inductive Spells : Level → List Char → Guard → Prop where
  | ofConjunction {text : List Char} {guard : Guard} (spelled : Spells .conjunction text guard) :
      Spells .disjunction text guard
  | either {first second text : List Char} {left right : Guard}
      (leftSpelled : Spells .disjunction first left)
      (rightSpelled : Spells .conjunction second right)
      (row : InRow [first, "||".toList, second] text) : Spells .disjunction text (.either left right)
  | ofUnary {text : List Char} {guard : Guard} (spelled : Spells .unary text guard) :
      Spells .conjunction text guard
  | both {first second text : List Char} {left right : Guard}
      (leftSpelled : Spells .conjunction first left) (rightSpelled : Spells .unary second right)
      (row : InRow [first, "&&".toList, second] text) : Spells .conjunction text (.both left right)
  | ofPrimary {text : List Char} {guard : Guard} (spelled : Spells .primary text guard) :
      Spells .unary text guard
  | negation {negated text : List Char} {inner : Guard} (innerSpelled : Spells .unary negated inner)
      (row : InRow ["!".toList, negated] text) : Spells .unary text (.negation inner)
  | parentheses {enclosed text : List Char} {guard : Guard}
      (innerSpelled : Spells .disjunction enclosed guard)
      (row : InRow ["(".toList, enclosed, ")".toList] text) : Spells .primary text guard
  | active {quoted text : List Char} {state : String} (quotes : SpellsString Content quoted state)
      (row : InRow ["In(".toList, quoted, ")".toList] text) : Spells .primary text (.active state)
  | literal (value : Bool) : Spells .primary (toString value).toList (.literal value)
  | truthy {text : List Char} {field : Field} (named : SpellsField text field) :
      Spells .primary text (.truthy field)
  | equal {name spelled text : List Char} {field : Field} {value : Json.Value}
      (named : SpellsField name field) (valued : SpellsValue Content spelled value)
      (row : InRow [name, "==".toList, spelled] text) : Spells .primary text (.equal field value)
  | unequal {name spelled text : List Char} {field : Field} {value : Json.Value}
      (named : SpellsField name field) (valued : SpellsValue Content spelled value)
      (row : InRow [name, "!=".toList, spelled] text) : Spells .primary text (.unequal field value)
  | compare {name spelled text : List Char} {field : Field} {bound : Float} (order : Comparison)
      (named : SpellsField name field) (bounded : SpellsNumber spelled bound)
      (row : InRow [name, order.sign.toList, spelled] text) :
      Spells .primary text (.compare order field bound)

end

/-! ## Texts without backslashes -/

variable {Content Other : Char → List Char → Prop} {parts : List (List Char)}
  {part text content : List Char} {quote : Char}

/-- What a row does not contain, none of its parts contains. -/
theorem InRow.not_mem (row : InRow parts text) {c : Char} (notInRow : c ∉ text)
    (isPart : part ∈ parts) : c ∉ part := by
  intro member
  apply notInRow
  induction row with
  | last only => exact List.mem_singleton.1 isPart ▸ member
  | next first areBlanks others ih =>
      rcases List.mem_cons.1 isPart with isFirst | later
      · exact List.mem_append_left _ (isFirst ▸ member)
      · refine List.mem_append_right _ (List.mem_append_right _ (ih ?_ later))
        exact fun member => notInRow (List.mem_append_right _ (List.mem_append_right _ member))

theorem escaping_iff_plain (noBackslash : '\\' ∉ content) :
    Escaping quote content ↔ Plain quote content := by
  constructor
  · intro escaping
    induction escaping with
    | nil => exact List.not_mem_nil
    | cons notQuote notBackslash others ih =>
        have fewer := ih (fun later => noBackslash (List.mem_cons_of_mem _ later))
        exact fun member => (List.mem_cons.1 member).elim (fun same => notQuote same.symm) fewer
    | escape c others => exact absurd List.mem_cons_self noBackslash
  · intro plain
    induction content with
    | nil => exact .nil
    | cons c rest ih =>
        obtain ⟨notBackslash, noneLater⟩ := not_or.1 (mt List.mem_cons.2 noBackslash)
        obtain ⟨notQuote, notLater⟩ := not_or.1 (mt List.mem_cons.2 plain)
        exact .cons (Ne.symm notQuote) (Ne.symm notBackslash) (ih noneLater notLater)

/-- Without backslashes, content of the one kind is also of the other. -/
def AgreeUnescaped (Content Other : Char → List Char → Prop) : Prop :=
  ∀ quote content, '\\' ∉ content → Content quote content → Other quote content

theorem SpellsString.agree (agree : AgreeUnescaped Content Other) {content : String}
    (spelled : SpellsString Content text content) (noBackslash : '\\' ∉ text) :
    SpellsString Other text content := by
  obtain ⟨quote, isQuote, held, rfl⟩ := spelled
  refine ⟨quote, isQuote, agree quote _ (fun member => noBackslash ?_) held, rfl⟩
  exact List.mem_cons_of_mem _ (List.mem_append_left _ member)

theorem SpellsValue.agree (agree : AgreeUnescaped Content Other) {value : Json.Value}
    (spelled : SpellsValue Content text value) (noBackslash : '\\' ∉ text) :
    SpellsValue Other text value := by
  cases spelled with
  | bool value => exact .bool value
  | null => exact .null
  | string spelled => exact .string (spelled.agree agree noBackslash)
  | number spelled finite => exact .number spelled finite

theorem Spells.agree (agree : AgreeUnescaped Content Other) {level : Level} {guard : Guard}
    (spelled : Spells Content level text guard) (noBackslash : '\\' ∉ text) :
    Spells Other level text guard := by
  induction spelled with
  | ofConjunction _ ih => exact .ofConjunction (ih noBackslash)
  | either _ _ row leftIH rightIH =>
      exact .either (leftIH (row.not_mem noBackslash (by simp)))
        (rightIH (row.not_mem noBackslash (by simp))) row
  | ofUnary _ ih => exact .ofUnary (ih noBackslash)
  | both _ _ row leftIH rightIH =>
      exact .both (leftIH (row.not_mem noBackslash (by simp)))
        (rightIH (row.not_mem noBackslash (by simp))) row
  | ofPrimary _ ih => exact .ofPrimary (ih noBackslash)
  | negation _ row ih => exact .negation (ih (row.not_mem noBackslash (by simp))) row
  | parentheses _ row ih => exact .parentheses (ih (row.not_mem noBackslash (by simp))) row
  | active quotes row => exact .active (quotes.agree agree (row.not_mem noBackslash (by simp))) row
  | literal value => exact .literal value
  | truthy named => exact .truthy named
  | equal named valued row =>
      exact .equal named (valued.agree agree (row.not_mem noBackslash (by simp))) row
  | unequal named valued row =>
      exact .unequal named (valued.agree agree (row.not_mem noBackslash (by simp))) row
  | compare order named bounded row => exact .compare order named bounded row

/-- Without backslashes in the text, strings are spelled alike plainly and with escapes. -/
theorem spells_escaping_iff {level : Level} {guard : Guard} (noBackslash : '\\' ∉ text) :
    Spells Escaping level text guard ↔ Spells Plain level text guard := by
  constructor
  · exact fun spelled => spelled.agree (fun _ _ none => (escaping_iff_plain none).1) noBackslash
  · exact fun spelled => spelled.agree (fun _ _ none => (escaping_iff_plain none).2) noBackslash

end Guard

end Statechart
