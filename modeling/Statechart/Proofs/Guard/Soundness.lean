import Statechart.Proofs.Guard.Grammar
import Statechart.Proofs.Guard.Numerals
import Statechart.Proofs.Stages

/-!
# What is read is spelled

Whatever a reader takes from the front of an input spells the result, with
blanks around it at most.  This is shown reader by reader; a chain of operands
grows to the left with every operand taken, and the nesting depth carries the
induction for parentheses.
-/

namespace Statechart

open Text (AreBlanks skipBlanks)

namespace Guard

variable {input middle rest part content : List Char} {parts : List (List Char)}
  {Result : Type} {guard : Guard}

/-- The input begins with the part, blanks around it, and goes on with the rest. -/
def Begins (input part rest : List Char) : Prop :=
  ∃ before after, AreBlanks before ∧ AreBlanks after ∧ input = before ++ (part ++ (after ++ rest))

/-- The input begins with the parts one after the other, blanks around and between them. -/
def BeginsRow (input : List Char) (parts : List (List Char)) (rest : List Char) : Prop :=
  ∃ text, InRow parts text ∧ Begins input text rest

/-- Whatever the reader takes spells what it yields. -/
def IsSound (spells : List Char → Result → Prop) (reader : Reader Result) : Prop :=
  ∀ ⦃input rest : List Char⦄ ⦃result : Result⦄, reader input = .ok (result, rest) →
    ∃ part, spells part result ∧ Begins input part rest

theorem Begins.of_eq (front : input = part ++ rest) : Begins input part rest :=
  ⟨[], [], Text.areBlanks_nil, Text.areBlanks_nil, front⟩

theorem Begins.of_skipBlanks (begins : Begins (skipBlanks input) part rest) :
    Begins input part rest := by
  obtain ⟨before, after, areBefore, areAfter, split⟩ := begins
  obtain ⟨blanks, areBlanks, skipped⟩ := Text.exists_skipped input
  refine ⟨blanks ++ before, after, List.forall_mem_append.2 ⟨areBlanks, areBefore⟩, areAfter, ?_⟩
  rw [List.append_assoc, ← split, ← skipped]

theorem Begins.skipBlanks_rest (begins : Begins input part rest) :
    Begins input part (skipBlanks rest) := by
  obtain ⟨before, after, areBefore, areAfter, split⟩ := begins
  obtain ⟨blanks, areBlanks, skipped⟩ := Text.exists_skipped rest
  refine ⟨before, after ++ blanks, areBefore, List.forall_mem_append.2 ⟨areAfter, areBlanks⟩, ?_⟩
  rw [List.append_assoc, ← skipped, split]

theorem Begins.cons {c : Char} (blank : Text.isBlank c = true) (begins : Begins input part rest) :
    Begins (c :: input) part rest := by
  obtain ⟨before, after, areBefore, areAfter, rfl⟩ := begins
  exact ⟨c :: before, after, Text.areBlanks_cons.2 ⟨blank, areBefore⟩, areAfter, rfl⟩

theorem Begins.row (begins : Begins input part rest) : BeginsRow input [part] rest :=
  ⟨part, .last part, begins⟩

theorem Begins.next (begins : Begins input part middle) (others : BeginsRow middle parts rest) :
    BeginsRow input (part :: parts) rest := by
  obtain ⟨before, after, areBefore, areAfter, rfl⟩ := begins
  obtain ⟨text, row, blanks, last, areBlanks, areLast, rfl⟩ := others
  refine ⟨_, .next part (List.forall_mem_append.2 ⟨areAfter, areBlanks⟩) row, before, last,
    areBefore, areLast, ?_⟩
  simp only [List.append_assoc]

/-! ## Words, strings and numbers -/

theorem eq_append_of_skip? {beginning : String} (found : skip? beginning input = some rest) :
    input = beginning.toList ++ rest := by
  rw [skip?] at found
  split at found
  · next isBeginning =>
      cases found
      exact (List.prefix_iff_eq_append.1 (List.isPrefixOf_iff_prefix.1 isBeginning)).symm
  · cases found

theorem eq_append_of_skipKeyword? {word : String} (found : skipKeyword? word input = some rest) :
    input = word.toList ++ rest := by
  rw [skipKeyword?] at found
  split at found
  · cases found
  · next skipped => exact Option.some.inj found ▸ eq_append_of_skip? skipped
  · next skipped =>
      split at found
      · cases found
      · exact Option.some.inj found ▸ eq_append_of_skip? skipped

theorem escaping_of_readQuoted {quote : Char}
    (found : readQuoted quote input = some (content, rest)) :
    Escaping quote content ∧ input = content ++ quote :: rest := by
  fun_induction readQuoted quote input generalizing content with
  | case1 => cases found
  | case2 => cases found
  | case3 c others ih =>
      obtain ⟨⟨later, _⟩, foundLater, same⟩ := Option.map_eq_some_iff.1 found
      cases same
      obtain ⟨escaping, rfl⟩ := ih foundLater
      exact ⟨.escape c escaping, rfl⟩
  | case4 others notLast notEscape =>
      cases found
      exact ⟨.nil, rfl⟩
  | case5 c others notLast notEscape notQuote ih =>
      obtain ⟨⟨later, _⟩, foundLater, same⟩ := Option.map_eq_some_iff.1 found
      cases same
      obtain ⟨escaping, rfl⟩ := ih foundLater
      refine ⟨.cons notQuote ?_ escaping, rfl⟩
      rintro rfl
      cases later with
      | nil => exact notEscape _ _ rfl rfl
      | cons next _ => exact notEscape _ _ rfl rfl

theorem readString_isSound : IsSound (SpellsString Escaping) readString := by
  intro input rest state read
  cases input with
  | nil => cases read
  | cons quote others =>
      rw [readString] at read
      split at read
      · next isQuote =>
          split at read
          · next content rest found =>
              cases read
              obtain ⟨escaping, rfl⟩ := escaping_of_readQuoted found
              refine ⟨quote :: (content ++ [quote]), ⟨quote, isQuote, ?_, ?_⟩, ?_⟩
              · rwa [String.toList_ofList]
              · rw [String.toList_ofList]
              · exact .of_eq (by simp)
          · cases read
      · cases read

theorem isDigit_of_mem_takeWhile {input : List Char} :
    ∀ c ∈ input.takeWhile Char.isDigit, c.isDigit = true :=
  List.all_eq_true.1 List.all_takeWhile

theorem takeWhile_append_drop (test : Char → Bool) (input : List Char) :
    input.takeWhile test ++ input.drop (input.takeWhile test).length = input :=
  List.prefix_iff_eq_append.1 (List.takeWhile_prefix test)

/-- Whether a numeral has a sign, and what comes after the sign. -/
def Numeral.takeSign : List Char → Bool × List Char
  | '-' :: rest => (true, rest)
  | rest => (false, rest)

theorem Numeral.eq_of_takeSign {input afterSign : List Char} {isMinus : Bool}
    (signed : takeSign input = (isMinus, afterSign)) :
    input = (if isMinus then ['-'] else []) ++ afterSign ∧
      (isMinus = false → input.head? ≠ some '-') := by
  unfold takeSign at signed
  split at signed
  · cases signed
    exact ⟨rfl, fun impossible => absurd impossible Bool.true_eq_false.mp⟩
  · next noSign =>
      cases signed
      refine ⟨rfl, fun _ isFirst => ?_⟩
      obtain ⟨others, front⟩ := List.head?_eq_some_iff.1 isFirst
      exact noSign others front

/-- A numeral takes digits only, and its characters are the front of the input. -/
theorem Numeral.take_spec (input : List Char) :
    (∀ c ∈ (Numeral.take input).1.digits, c.isDigit = true) ∧
      input = (Numeral.take input).1.chars ++ (Numeral.take input).2 := by
  fun_cases Numeral.take input with
  | case1 isMinus afterSign signed whole rest point fraction =>
      refine ⟨List.forall_mem_append.2 ⟨isDigit_of_mem_takeWhile, isDigit_of_mem_takeWhile⟩, ?_⟩
      calc input
        _ = (if isMinus then ['-'] else []) ++ (whole ++ '.' :: rest) := by
            rw [← point, takeWhile_append_drop]
            exact (Numeral.eq_of_takeSign signed).1
        _ = _ := by
            rw [← takeWhile_append_drop Char.isDigit rest]
            simp [Numeral.chars, fraction]
  | case2 isMinus afterSign signed whole noPoint =>
      refine ⟨List.forall_mem_append.2 ⟨isDigit_of_mem_takeWhile, ?_⟩, ?_⟩
      · exact fun _ member => absurd member List.not_mem_nil
      · calc input
          _ = (if isMinus then ['-'] else []) ++ (whole ++ afterSign.drop whole.length) := by
              rw [takeWhile_append_drop]
              exact (Numeral.eq_of_takeSign signed).1
          _ = _ := by simp [Numeral.chars]

theorem readNumber_isSound : IsSound SpellsNumber readNumber := by
  intro input rest x read
  obtain ⟨allDigits, front⟩ := Numeral.take_spec (skipBlanks input)
  simp only [readNumber] at read
  split at read
  · cases read
  · next someDigit =>
      obtain ⟨rfl, rfl⟩ := Prod.mk.inj (Except.ok.inj read)
      exact ⟨_, ⟨_, by simpa using someDigit, allDigits, rfl, rfl⟩, .of_skipBlanks (.of_eq front)⟩

theorem readValue_isSound : IsSound (SpellsValue Escaping) readValue := by
  intro input rest value read
  suffices ∃ part, SpellsValue Escaping part value ∧ Begins (skipBlanks input) part rest by
    obtain ⟨part, spelled, begins⟩ := this
    exact ⟨part, spelled, begins.of_skipBlanks⟩
  have quoted : (readString (skipBlanks input)).map
      (fun found => (Json.Value.string found.1, found.2)) = .ok (value, rest) →
      ∃ part, SpellsValue Escaping part value ∧ Begins (skipBlanks input) part rest := by
    intro read
    obtain ⟨⟨content, _⟩, readContent, same⟩ := exists_of_map_eq_ok read
    cases same
    obtain ⟨part, spelled, begins⟩ := readString_isSound readContent
    exact ⟨part, .string spelled, begins⟩
  simp only [readValue] at read
  split at read
  · next found =>
      cases read
      exact ⟨_, .bool true, .of_eq (eq_append_of_skipKeyword? found)⟩
  split at read
  · next found =>
      cases read
      exact ⟨_, .bool false, .of_eq (eq_append_of_skipKeyword? found)⟩
  split at read
  · next found =>
      cases read
      exact ⟨_, .null, .of_eq (eq_append_of_skipKeyword? found)⟩
  split at read
  · exact quoted read
  · exact quoted read
  · obtain ⟨⟨x, _⟩, readNumeral, checked⟩ := exists_of_bind_eq_ok read
    obtain ⟨part, spelled, begins⟩ := readNumber_isSound readNumeral
    split at checked
    · cases checked
    · next notInf =>
        cases checked
        obtain ⟨numeral, _, _, _, rfl⟩ := id spelled
        refine ⟨part, .number spelled ?_, begins⟩
        rw [numeral.isFinite_value, Bool.eq_false_iff.2 notInf]
        rfl

/-! ## Primaries -/

theorem readField_isSound : IsSound SpellsField readField := by
  intro input rest field read
  have below : ∀ (root : FieldRoot) {after : List Char},
      input = root.beginning.toList ++ after →
      (if (after.takeWhile Text.isPathChar).isEmpty then Except.error Flaw.emptyField
        else .ok (⟨root, String.ofList (after.takeWhile Text.isPathChar)⟩,
          after.drop (after.takeWhile Text.isPathChar).length)) = .ok (field, rest) →
      ∃ part, SpellsField part field ∧ Begins input part rest := by
    intro root after front read
    split at read
    · cases read
    · next nonempty =>
        cases read
        refine ⟨_, ⟨⟨?_, ?_⟩, rfl⟩, .of_eq ?_⟩
        · simpa using nonempty
        · simpa using List.all_eq_true.1 List.all_takeWhile
        · rw [String.toList_ofList, List.append_assoc, takeWhile_append_drop, front]
  simp only [readField] at read
  split at read
  · next found => exact below .context (eq_append_of_skip? found) read
  · split at read
    · next found => exact below .event (eq_append_of_skip? found) read
    · cases read

theorem Begins.signed {name sign right spelled : List Char} (named : Begins input name middle)
    (signed : skipBlanks middle = sign ++ right) (against : Begins right spelled rest) :
    BeginsRow input [name, sign, spelled] rest :=
  named.next (Begins.next (.of_skipBlanks (.of_eq signed)) against.row)

theorem readComparison_isSound : IsSound (Spells Escaping .primary) readComparison := by
  intro input rest guard read
  obtain ⟨⟨field, middle⟩, readName, read⟩ := exists_of_bind_eq_ok read
  obtain ⟨name, named, begins⟩ := readField_isSound readName
  have valued : ∀ (sign : String) {join : Json.Value → Guard} {right : List Char},
      skipBlanks middle = sign.toList ++ right →
      (readValue right).map (fun found => (join found.1, found.2)) = .ok (guard, rest) →
      ∃ value spelled text, guard = join value ∧ SpellsValue Escaping spelled value ∧
        InRow [name, sign.toList, spelled] text ∧ Begins input text rest := by
    intro sign join right signed read
    obtain ⟨⟨value, _⟩, readRight, same⟩ := exists_of_map_eq_ok read
    cases same
    obtain ⟨spelled, spells, follows⟩ := readValue_isSound readRight
    obtain ⟨text, row, begins⟩ := begins.signed signed follows
    exact ⟨value, spelled, text, rfl, spells, row, begins⟩
  have bounded : ∀ (order : Comparison) {right : List Char},
      skipBlanks middle = order.sign.toList ++ right →
      (readNumber right).map (fun found => (compare order field found.1, found.2)) =
        .ok (guard, rest) →
      ∃ part, Spells Escaping .primary part guard ∧ Begins input part rest := by
    intro order right signed read
    obtain ⟨⟨bound, _⟩, readRight, same⟩ := exists_of_map_eq_ok read
    obtain ⟨rfl, rfl⟩ := Prod.mk.inj same
    obtain ⟨spelled, spells, follows⟩ := readNumber_isSound readRight
    obtain ⟨text, row, begins⟩ := begins.signed signed follows
    exact ⟨text, .compare order named spells row, begins⟩
  dsimp only at read
  split at read
  · next right signed =>
      obtain ⟨value, spelled, text, rfl, spells, row, begins⟩ := valued "==" signed read
      exact ⟨text, .equal named spells row, begins⟩
  · next right signed =>
      obtain ⟨value, spelled, text, rfl, spells, row, begins⟩ := valued "!=" signed read
      exact ⟨text, .unequal named spells row, begins⟩
  · next signed => exact bounded .atLeast signed read
  · next signed => exact bounded .atMost signed read
  · next signed => exact bounded .above signed read
  · next signed => exact bounded .below signed read
  · cases read
    exact ⟨name, .truthy named, begins.skipBlanks_rest⟩

theorem exists_of_readActive (read : readActive input = .ok (guard, rest)) :
    ∃ quoted state, guard = .active state ∧ SpellsString Escaping quoted state ∧
      BeginsRow input [quoted, ")".toList] rest := by
  obtain ⟨⟨state, middle⟩, readState, read⟩ := exists_of_bind_eq_ok read
  obtain ⟨quoted, spelled, begins⟩ := readString_isSound readState
  dsimp only at read
  split at read
  · next closed =>
      cases read
      have closing : Begins middle ")".toList rest := .of_skipBlanks (.of_eq closed)
      exact ⟨quoted, state, rfl, spelled, begins.of_skipBlanks.next closing.row⟩
  · cases read

theorem readPrimary_isSound {nested : Reader Guard}
    (isSound : IsSound (Spells Escaping .disjunction) nested) :
    IsSound (Spells Escaping .primary) (readPrimary nested) := by
  intro input rest guard read
  suffices ∃ part, Spells Escaping .primary part guard ∧ Begins (skipBlanks input) part rest by
    obtain ⟨part, spelled, begins⟩ := this
    exact ⟨part, spelled, begins.of_skipBlanks⟩
  simp only [readPrimary] at read
  split at read
  · next opened =>
      obtain ⟨⟨inner, middle⟩, readInner, read⟩ := exists_of_bind_eq_ok read
      obtain ⟨enclosed, spelled, begins⟩ := isSound readInner
      dsimp only at read
      split at read
      · next closed =>
          cases read
          have opening : Begins (skipBlanks input) "(".toList _ := .of_eq opened
          have closing : Begins middle ")".toList rest := .of_skipBlanks (.of_eq closed)
          obtain ⟨text, row, begins⟩ := opening.next (begins.next closing.row)
          exact ⟨text, .parentheses spelled row, begins⟩
      · cases read
  split at read
  · next found =>
      obtain ⟨quoted, state, rfl, spelled, others⟩ := exists_of_readActive read
      obtain ⟨text, row, begins⟩ := Begins.next (.of_eq (eq_append_of_skip? found)) others
      exact ⟨text, .active spelled row, begins⟩
  split at read
  · next found =>
      cases read
      exact ⟨_, .literal true, .of_eq (eq_append_of_skipKeyword? found)⟩
  split at read
  · next found =>
      cases read
      exact ⟨_, .literal false, .of_eq (eq_append_of_skipKeyword? found)⟩
  · exact readComparison_isSound read

/-! ## Chains and nesting -/

/-- Every negation sign taken negates what is read after all of them. -/
theorem exists_negated_of_takeNegations {part : List Char}
    (spelled : Spells Escaping .unary part guard)
    (begins : Begins (takeNegations input).2 part rest) :
    ∃ text, Spells Escaping .unary text (negated (takeNegations input).1 guard) ∧
      Begins input text rest := by
  fun_induction takeNegations input with
  | case1 => exact ⟨part, spelled, begins⟩
  | case2 others => exact ⟨part, spelled, begins⟩
  | case3 others notUnequal count after taken ih =>
      rw [taken] at ih
      obtain ⟨text, spelled, begins⟩ := ih begins
      have sign : Begins ('!' :: others) "!".toList others := .of_eq rfl
      obtain ⟨text, row, begins⟩ := sign.next begins.row
      exact ⟨text, .negation spelled row, begins⟩
  | case4 c others notUnequal notNegation blank ih =>
      obtain ⟨text, spelled, begins⟩ := ih begins
      exact ⟨text, spelled, begins.cons blank⟩
  | case5 c others notUnequal notNegation notBlank => exact ⟨part, spelled, begins⟩

theorem readUnary_isSound {primary : Reader Guard}
    (isSound : IsSound (Spells Escaping .primary) primary) :
    IsSound (Spells Escaping .unary) (readUnary primary) := by
  intro input rest guard read
  obtain ⟨⟨inner, _⟩, readInner, same⟩ := exists_of_bind_eq_ok read
  cases same
  obtain ⟨part, spelled, begins⟩ := isSound readInner
  exact exists_negated_of_takeNegations (.ofPrimary spelled) begins

section

variable {mark : Char} {join : Guard → Guard → Guard} {operand : Reader Guard} {lower upper : Level}

/-- Every further operand joins what was read before it, so the guard grows to the left. -/
theorem exists_of_readOperands (isSound : IsSound (Spells Escaping lower) operand)
    (joins : ∀ {first second text : List Char} {left right : Guard},
      Spells Escaping upper first left → Spells Escaping lower second right →
      InRow [first, [mark, mark], second] text → Spells Escaping upper text (join left right))
    {limit : Nat} {left : Guard} (spelled : Spells Escaping upper part left)
    (begins : Begins input part middle)
    (read : readOperands mark join operand limit left middle = .ok (guard, rest)) :
    ∃ text, Spells Escaping upper text guard ∧ Begins input text rest := by
  induction limit generalizing part middle left with
  | zero =>
      cases read
      exact ⟨part, spelled, begins.skipBlanks_rest⟩
  | succ limit ih =>
      have stopped : ∀ {after : List Char}, skipBlanks middle = after →
          (.ok (left, after) : Except Flaw _) = .ok (guard, rest) →
          ∃ text, Spells Escaping upper text guard ∧ Begins input text rest := by
        intro after skipped read
        cases read
        exact ⟨part, spelled, skipped ▸ begins.skipBlanks_rest⟩
      rw [readOperands] at read
      split at read
      · next first second after skipped =>
          split at read
          · next isMark =>
              have marked : skipBlanks middle = [mark, mark] ++ after := by
                rw [skipped, isMark.1, isMark.2]
                rfl
              obtain ⟨⟨right, _⟩, readRight, read⟩ := exists_of_bind_eq_ok read
              obtain ⟨other, spelledRight, follows⟩ := isSound readRight
              obtain ⟨text, row, begins⟩ := begins.signed marked follows.of_skipBlanks
              exact ih (joins spelled spelledRight row) begins read
          · exact stopped skipped read
      · exact stopped rfl read

theorem readChain_isSound (isSound : IsSound (Spells Escaping lower) operand)
    (lifts : ∀ {text : List Char} {guard : Guard},
      Spells Escaping lower text guard → Spells Escaping upper text guard)
    (joins : ∀ {first second text : List Char} {left right : Guard},
      Spells Escaping upper first left → Spells Escaping lower second right →
      InRow [first, [mark, mark], second] text → Spells Escaping upper text (join left right)) :
    IsSound (Spells Escaping upper) (readChain mark join operand) := by
  intro input rest guard read
  obtain ⟨⟨first, _⟩, readFirst, read⟩ := exists_of_bind_eq_ok read
  obtain ⟨part, spelled, begins⟩ := isSound readFirst
  exact exists_of_readOperands isSound joins (lifts spelled) begins read

end

theorem readWithin_isSound (depth : Nat) :
    IsSound (Spells Escaping .disjunction) (readWithin depth) := by
  induction depth with
  | zero =>
      intro input rest guard read
      cases read
  | succ depth ih =>
      have primaries : IsSound (Spells Escaping .primary) (readPrimary (readWithin depth)) :=
        readPrimary_isSound ih
      have conjunctions : IsSound (Spells Escaping .conjunction)
          (readChain '&' both (readUnary (readPrimary (readWithin depth)))) :=
        readChain_isSound (readUnary_isSound primaries) .ofUnary .both
      have disjunctions : IsSound (Spells Escaping .disjunction)
          (readChain '|' either (readChain '&' both (readUnary (readPrimary (readWithin depth))))) :=
        readChain_isSound conjunctions .ofConjunction .either
      exact disjunctions

theorem Begins.eq_of_isTrimmed (begins : Begins input part rest) (trimmed : Text.IsTrimmed input)
    (areBlanks : AreBlanks rest) : part = input := by
  obtain ⟨before, after, areBefore, areAfter, rfl⟩ := begins
  have noneBefore : before = [] := by
    cases before with
    | nil => rfl
    | cons c others =>
        have notBlank := trimmed.first c rfl
        rw [(Text.areBlanks_cons.1 areBefore).1] at notBlank
        cases notBlank
  have noneAfter : after ++ rest = [] := by
    cases ends : (after ++ rest).getLast? with
    | none => exact List.getLast?_eq_none_iff.1 ends
    | some c =>
        have notBlank := trimmed.last c (by simp [List.getLast?_append, ends])
        have blank := List.forall_mem_append.2 ⟨areAfter, areBlanks⟩ c (List.mem_of_getLast? ends)
        rw [blank] at notBlank
        cases notBlank
  rw [noneBefore, noneAfter, List.nil_append, List.append_nil]

/-- What is parsed spells the guard from the first character to the last, blanks aside. -/
theorem spells_of_parse {text : String} (parsed : parse text = .ok guard) :
    Spells Escaping .disjunction (Text.trimChars text.toList) guard := by
  simp only [parse] at parsed
  split at parsed
  · cases parsed
  · obtain ⟨⟨guard, rest⟩, read, parsed⟩ := exists_of_bind_eq_ok parsed
    obtain ⟨part, spelled, begins⟩ := readWithin_isSound _ read
    dsimp only at parsed
    split at parsed
    · next nothing =>
        cases parsed
        rwa [begins.eq_of_isTrimmed (Text.isTrimmed_trimChars _)
          (Text.areBlanks_of_skipBlanks_eq_nil nothing)] at spelled
    · cases parsed

end Guard

end Statechart
