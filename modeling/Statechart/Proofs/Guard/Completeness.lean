import Statechart.Proofs.Guard.Tokens

/-!
# What is spelled is read

A reader takes all of a spelled part if only what may come after it follows: a
parenthesis, or a mark that binds looser.  A chain is followed from its first
operand on: as far as its text goes, reading the chain is reading on with the
guard joined so far.
-/

namespace Statechart

open Text (AreBlanks skipBlanks)

namespace Guard

variable {input rest part text blanks : List Char} {parts : List (List Char)}
  {marks : List Char} {Result : Type} {guard : Guard} {c : Char}

/-! ## Comparisons -/

/-- What a comparison is read as after its field: the sign and then what it stands before. -/
theorem readComparison_append {field : Field} {name after : List Char}
    (spelled : SpellsField name field) (ends : EndsName after) :
    readComparison (name ++ after) = match skipBlanks after with
      | '=' :: '=' :: rest => (readValue rest).map (fun found => (equal field found.1, found.2))
      | '!' :: '=' :: rest => (readValue rest).map (fun found => (unequal field found.1, found.2))
      | '>' :: '=' :: rest =>
        (readNumber rest).map (fun found => (compare .atLeast field found.1, found.2))
      | '<' :: '=' :: rest =>
        (readNumber rest).map (fun found => (compare .atMost field found.1, found.2))
      | '>' :: rest => (readNumber rest).map (fun found => (compare .above field found.1, found.2))
      | '<' :: rest => (readNumber rest).map (fun found => (compare .below field found.1, found.2))
      | rest => .ok (truthy field, rest) := by
  rw [readComparison, readField_append spelled ends]
  rfl

theorem readPrimary_of_field {nested : Reader Guard} {field : Field}
    (spelled : SpellsField text field) :
    readPrimary nested (text ++ rest) = readComparison (text ++ rest) := by
  obtain ⟨-, rfl⟩ := spelled
  cases field.root with
  | context => rfl
  | event => rfl

theorem readComparison_alone {field : Field} (spelled : SpellsField text field)
    (stops : Stops [')', '|', '&'] rest) :
    readComparison (text ++ rest) = .ok (truthy field, skipBlanks rest) := by
  rw [readComparison_append spelled (stops.endsName (by decide))]
  cases following : skipBlanks rest with
  | nil => rfl
  | cons next others =>
      have isMark := stops next (by rw [following]; rfl)
      simp only [List.mem_cons, List.not_mem_nil, or_false] at isMark
      rcases isMark with rfl | rfl | rfl
      · rfl
      · rfl
      · rfl

theorem readComparison_equal {field : Field} (spelled : SpellsField text field)
    (areBlanks : AreBlanks blanks) (rest : List Char) :
    readComparison (text ++ (blanks ++ ("==".toList ++ rest))) =
      (readValue rest).map (fun found => (equal field found.1, found.2)) := by
  have begins : blanks ++ ("==".toList ++ rest) = blanks ++ '=' :: '=' :: rest := rfl
  rw [readComparison_append spelled (begins ▸ endsName_append areBlanks (by decide)),
    Text.skipBlanks_append areBlanks]
  rfl

theorem readComparison_unequal {field : Field} (spelled : SpellsField text field)
    (areBlanks : AreBlanks blanks) (rest : List Char) :
    readComparison (text ++ (blanks ++ ("!=".toList ++ rest))) =
      (readValue rest).map (fun found => (unequal field found.1, found.2)) := by
  have begins : blanks ++ ("!=".toList ++ rest) = blanks ++ '!' :: '=' :: rest := rfl
  rw [readComparison_append spelled (begins ▸ endsName_append areBlanks (by decide)),
    Text.skipBlanks_append areBlanks]
  rfl

theorem readComparison_compare {field : Field} (spelled : SpellsField text field)
    (areBlanks : AreBlanks blanks) (order : Comparison) (notEqual : rest.head? ≠ some '=') :
    readComparison (text ++ (blanks ++ (order.sign.toList ++ rest))) =
      (readNumber rest).map (fun found => (compare order field found.1, found.2)) := by
  have ends : EndsName (blanks ++ (order.sign.toList ++ rest)) := by
    cases order with
    | above => exact endsName_append areBlanks (by decide)
    | atLeast => exact endsName_append areBlanks (by decide)
    | below => exact endsName_append areBlanks (by decide)
    | atMost => exact endsName_append areBlanks (by decide)
  rw [readComparison_append spelled ends, Text.skipBlanks_append areBlanks]
  cases order with
  | atLeast => rfl
  | atMost => rfl
  | above =>
      cases rest with
      | nil => rfl
      | cons next others =>
          have kept : skipBlanks (Comparison.above.sign.toList ++ next :: others) =
              '>' :: next :: others := rfl
          have differs : next ≠ '=' := fun same => notEqual (congrArg some same)
          simp [kept, differs]
  | below =>
      cases rest with
      | nil => rfl
      | cons next others =>
          have kept : skipBlanks (Comparison.below.sign.toList ++ next :: others) =
              '<' :: next :: others := rfl
          have differs : next ≠ '=' := fun same => notEqual (congrArg some same)
          simp [kept, differs]

/-! ## Rows and first characters -/

theorem InRow.exists_of_two {first second : List Char} (row : InRow [first, second] text) :
    ∃ blanks, AreBlanks blanks ∧ text = first ++ (blanks ++ second) := by
  cases row with
  | next _ areBlanks others =>
      cases others with
      | last => exact ⟨_, areBlanks, rfl⟩
      | next _ _ none => cases none

theorem InRow.exists_of_three {first second third : List Char}
    (row : InRow [first, second, third] text) :
    ∃ blanks others, AreBlanks blanks ∧ AreBlanks others ∧
      text = first ++ (blanks ++ (second ++ (others ++ third))) := by
  cases row with
  | next _ areBlanks others =>
      obtain ⟨later, areLater, rfl⟩ := others.exists_of_two
      exact ⟨_, later, areBlanks, areLater, rfl⟩

theorem InRow.length_le (row : InRow parts text) : (parts.map List.length).sum ≤ text.length := by
  induction row with
  | last => simp
  | next part _ _ ih =>
      simp only [List.map_cons, List.sum_cons, List.length_append]
      omega

/-- The characters a part may start with. -/
def Level.openings : Level → List Char
  | .primary => ['(', 'I', 't', 'f', 'c', '_']
  | _ => ['!', '(', 'I', 't', 'f', 'c', '_']

theorem InRow.exists_first (row : InRow (part :: parts) text)
    (begins : ∃ c others, part = c :: others ∧ c ∈ marks) :
    ∃ c others, text = c :: others ∧ c ∈ marks := by
  obtain ⟨c, others, rfl, member⟩ := begins
  cases row with
  | last => exact ⟨c, others, rfl, member⟩
  | next => exact ⟨c, _, rfl, member⟩

theorem exists_first_of_field {field : Field} (spelled : SpellsField text field) :
    ∃ c others, text = c :: others ∧ c ∈ Level.openings .primary := by
  obtain ⟨-, rfl⟩ := spelled
  cases field.root with
  | context => exact ⟨'c', _, rfl, by decide⟩
  | event => exact ⟨'_', _, rfl, by decide⟩

theorem Spells.exists_first {Content : Char → List Char → Prop} {level : Level}
    (spelled : Spells Content level text guard) :
    ∃ c others, text = c :: others ∧ c ∈ level.openings := by
  induction spelled with
  | ofConjunction _ ih => exact ih
  | either _ _ row ih => exact row.exists_first ih
  | ofUnary _ ih => exact ih
  | both _ _ row ih => exact row.exists_first ih
  | ofPrimary _ ih =>
      obtain ⟨c, others, front, member⟩ := ih
      exact ⟨c, others, front, List.mem_cons_of_mem _ member⟩
  | negation _ row => exact row.exists_first ⟨'!', [], rfl, by decide⟩
  | parentheses _ row => exact row.exists_first ⟨'(', [], rfl, by decide⟩
  | active _ row => exact row.exists_first ⟨'I', ['n', '('], rfl, by decide⟩
  | literal value =>
      cases value with
      | true => exact ⟨'t', _, rfl, by decide⟩
      | false => exact ⟨'f', _, rfl, by decide⟩
  | truthy named => exact exists_first_of_field named
  | equal named _ row => exact row.exists_first (exists_first_of_field named)
  | unequal named _ row => exact row.exists_first (exists_first_of_field named)
  | compare _ named _ row => exact row.exists_first (exists_first_of_field named)

theorem Level.openings_subset (level : Level) : level.openings ⊆ Level.openings .unary := by
  cases level with
  | primary => exact List.subset_cons_self _ _
  | _ => exact List.Subset.refl _

theorem Level.isBlank_of_mem_openings {level : Level} (member : c ∈ level.openings) :
    Text.isBlank c = false := by
  have none : (openings .unary).all (fun c => !Text.isBlank c) = true := by decide
  simpa using List.all_eq_true.1 none c (level.openings_subset member)

theorem Level.ne_equal_of_mem_openings {level : Level} (member : c ∈ level.openings) : c ≠ '=' := by
  rintro rfl
  exact absurd (level.openings_subset member) (by decide)

theorem head?_blanks_ne {other : Char} (areBlanks : AreBlanks blanks)
    (notBlank : Text.isBlank other = false) (differs : c ≠ other) :
    (blanks ++ c :: rest).head? ≠ some other := by
  intro isFirst
  cases blanks with
  | nil => exact differs (Option.some.inj isFirst)
  | cons first others =>
      cases isFirst
      exact Bool.noConfusion ((areBlanks _ List.mem_cons_self).symm.trans notBlank)

/-- No blank comes before a spelled part in what it starts. -/
theorem Spells.skipBlanks_append {Content : Char → List Char → Prop} {level : Level}
    (spelled : Spells Content level text guard) (rest : List Char) :
    skipBlanks (text ++ rest) = text ++ rest := by
  obtain ⟨c, others, rfl, member⟩ := spelled.exists_first
  exact Text.skipBlanks_cons (Level.isBlank_of_mem_openings member) _

/-! ## Negations -/

/-- The sign of an inequality is none of the signs that are counted. -/
theorem takeNegations_cons (c : Char) (rest : List Char) :
    takeNegations (c :: rest) =
      if c = '!' ∧ rest.head? ≠ some '=' then
        ((takeNegations rest).1 + 1, (takeNegations rest).2)
      else if Text.isBlank c then takeNegations rest
      else (0, c :: rest) := by
  generalize shape : c :: rest = input
  fun_cases takeNegations input with
  | case1 => cases shape
  | case2 others => cases shape; rfl
  | case3 others notEqual count after taken =>
      cases shape
      have isSign : rest.head? ≠ some '=' := by
        intro isFirst
        obtain ⟨others, rfl⟩ := List.head?_eq_some_iff.1 isFirst
        exact notEqual others rfl
      rw [if_pos ⟨rfl, isSign⟩, taken]
  | case4 c others _ notSign blank =>
      cases shape
      rw [if_neg (fun isSign => notSign isSign.1), if_pos blank]
  | case5 c others _ notSign notBlank =>
      cases shape
      rw [if_neg (fun isSign => notSign isSign.1), if_neg notBlank]

theorem takeNegations_blanks (areBlanks : AreBlanks blanks) (input : List Char) :
    takeNegations (blanks ++ input) = takeNegations input := by
  induction blanks with
  | nil => rfl
  | cons first others ih =>
      obtain ⟨blank, othersBlank⟩ := Text.areBlanks_cons.1 areBlanks
      have notSign : first ≠ '!' := by
        rintro rfl
        exact absurd blank (by decide)
      rw [List.cons_append, takeNegations_cons, if_neg (fun isSign => notSign isSign.1),
        if_pos blank, ih othersBlank]

theorem readUnary_eq (primary : Reader Guard) (input : List Char) :
    readUnary primary input = (primary (takeNegations input).2).map
      (fun found => (negated (takeNegations input).1 found.1, found.2)) := by
  simp only [readUnary]
  cases primary (takeNegations input).2 with
  | error flaw => rfl
  | ok found => rfl

theorem readUnary_blanks (primary : Reader Guard) (areBlanks : AreBlanks blanks)
    (input : List Char) : readUnary primary (blanks ++ input) = readUnary primary input := by
  rw [readUnary_eq, readUnary_eq, takeNegations_blanks areBlanks]

theorem readUnary_skipBlanks (primary : Reader Guard) (input : List Char) :
    readUnary primary (skipBlanks input) = readUnary primary input := by
  obtain ⟨blanks, areBlanks, split⟩ := Text.exists_skipped input
  calc readUnary primary (skipBlanks input)
    _ = readUnary primary (blanks ++ skipBlanks input) :=
        (readUnary_blanks primary areBlanks _).symm
    _ = readUnary primary input := by rw [← split]

theorem readUnary_sign (primary : Reader Guard) (notEqual : rest.head? ≠ some '=') :
    readUnary primary ('!' :: rest) =
      (readUnary primary rest).map (fun found => (negation found.1, found.2)) := by
  rw [readUnary_eq, readUnary_eq, takeNegations_cons, if_pos ⟨rfl, notEqual⟩]
  cases primary (takeNegations rest).2 with
  | error flaw => rfl
  | ok found => rfl

theorem readUnary_of_none {primary : Reader Guard} (none : takeNegations input = (0, input)) :
    readUnary primary input = primary input := by
  rw [readUnary_eq, none]
  cases primary input with
  | error flaw => rfl
  | ok found => rfl

theorem readUnary_plain (primary : Reader Guard) (notBlank : Text.isBlank c = false)
    (notSign : ¬ (c = '!' ∧ rest.head? ≠ some '=')) :
    readUnary primary (c :: rest) = primary (c :: rest) := by
  apply readUnary_of_none
  rw [takeNegations_cons, if_neg notSign, notBlank, if_neg Bool.false_ne_true]

/-! ## Chains -/

/-- What is left, with or without the blanks before it. -/
def IsLeft (rest left : List Char) : Prop :=
  left = rest ∨ left = skipBlanks rest

/-- Before what stops it, the reader takes the text and at most the blanks after it. -/
def Reads (marks : List Char) (reader : Reader Result) (text : List Char) (result : Result) :
    Prop :=
  ∀ ⦃rest : List Char⦄, Stops marks rest →
    ∃ left, IsLeft rest left ∧ reader (text ++ rest) = .ok (result, left)

/-- Reading a chain from the text on is reading on after it with the guard joined so far. -/
def ReadsOn (marks : List Char) (mark : Char) (join : Guard → Guard → Guard)
    (operand : Reader Guard) (text : List Char) (guard : Guard) : Prop :=
  ∀ ⦃rest : List Char⦄, Stops marks rest →
    ∃ limit left, left.length ≤ limit ∧ IsLeft rest left ∧
      readChain mark join operand (text ++ rest) = readOperands mark join operand limit guard left

theorem IsLeft.skipBlanks_eq {left : List Char} (isLeft : IsLeft rest left) :
    skipBlanks left = skipBlanks rest := by
  rcases isLeft with rfl | rfl
  · rfl
  · exact Text.skipBlanks_skipBlanks rest

theorem IsLeft.length_le {left : List Char} (isLeft : IsLeft rest left) :
    left.length ≤ rest.length := by
  rcases isLeft with rfl | rfl
  · exact Nat.le_refl _
  · exact Text.length_skipBlanks_le rest

section

variable {mark : Char} {join : Guard → Guard → Guard} {operand : Reader Guard} {left right : Guard}

theorem Reads.readsOn (reads : Reads marks operand text guard) :
    ReadsOn marks mark join operand text guard := by
  intro rest stops
  obtain ⟨left, isLeft, read⟩ := reads stops
  refine ⟨left.length, left, Nat.le_refl _, isLeft, ?_⟩
  rw [readChain, read]
  rfl

theorem ReadsOn.more (readsOn : ReadsOn marks mark join operand text left)
    (reads : Reads marks operand part right)
    (kept : ∀ rest, skipBlanks (part ++ rest) = part ++ rest) (isMark : mark ∈ marks)
    (notBlank : Text.isBlank mark = false) {joined : List Char}
    (row : InRow [text, [mark, mark], part] joined) :
    ReadsOn marks mark join operand joined (join left right) := by
  intro rest stops
  obtain ⟨blanks, others, areBlanks, areOthers, rfl⟩ := row.exists_of_three
  have stopped : Stops marks (blanks ++ mark :: mark :: (others ++ (part ++ rest))) :=
    stops_append areBlanks notBlank isMark
  obtain ⟨limit, before, within, isBefore, read⟩ := readsOn stopped
  have marked : skipBlanks before = mark :: mark :: (others ++ (part ++ rest)) := by
    rw [isBefore.skipBlanks_eq, Text.skipBlanks_append areBlanks, Text.skipBlanks_cons notBlank]
  obtain ⟨after, isAfter, readRight⟩ := reads stops
  have shorter : after.length + 2 ≤ before.length := by
    have skipped := Text.length_skipBlanks_le before
    have later := isAfter.length_le
    simp only [marked, List.length_cons, List.length_append] at skipped
    omega
  cases limit with
  | zero => omega
  | succ limit =>
      refine ⟨limit, after, by omega, isAfter, ?_⟩
      simp only [List.append_assoc, List.cons_append, List.nil_append, read, readOperands, marked]
      simp only [and_self, if_true, Text.skipBlanks_append areOthers, kept, readRight]
      rfl

theorem readOperands_of_stops {limit : Nat} (stops : Stops marks rest) (notMark : mark ∉ marks) :
    readOperands mark join operand limit guard rest = .ok (guard, skipBlanks rest) := by
  cases limit with
  | zero => rfl
  | succ limit =>
      rw [readOperands]
      split
      · next first second others following =>
          have differs : ¬ (first = mark ∧ second = mark) := by
            rintro ⟨rfl, -⟩
            exact notMark (stops first (by rw [following]; rfl))
          rw [if_neg differs, following]
      · rfl

theorem ReadsOn.reads {fewer : List Char} (readsOn : ReadsOn marks mark join operand text guard)
    (subset : fewer ⊆ marks) (notMark : mark ∉ fewer) :
    Reads fewer (readChain mark join operand) text guard := by
  intro rest stops
  obtain ⟨limit, left, -, isLeft, read⟩ := readsOn (stops.mono subset)
  have stopsLeft : Stops fewer left := by
    rw [Stops, isLeft.skipBlanks_eq]
    exact stops
  refine ⟨skipBlanks rest, .inr rfl, ?_⟩
  rw [read, readOperands_of_stops stopsLeft notMark, isLeft.skipBlanks_eq]

end

/-! ## Levels -/

/-- The characters that may come after a part. -/
def Level.followers : Level → List Char
  | .disjunction => [')']
  | .conjunction => [')', '|']
  | _ => [')', '|', '&']

def Level.reader (depth : Nat) : Level → Reader Guard
  | .disjunction => readWithin (depth + 1)
  | .conjunction => readChain '&' both (readUnary (readPrimary (readWithin depth)))
  | .unary => readUnary (readPrimary (readWithin depth))
  | .primary => readPrimary (readWithin depth)

/-- The text is read as the guard, and a chain is then read on. -/
def IsRead (depth : Nat) (text : List Char) (guard : Guard) : Level → Prop
  | .disjunction =>
    ReadsOn (Level.followers .conjunction) '|' either (Level.reader depth .conjunction) text guard
  | .conjunction => ReadsOn (Level.followers .unary) '&' both (Level.reader depth .unary) text guard
  | level => Reads level.followers (level.reader depth) text guard

theorem IsRead.reads {depth : Nat} {level : Level} (isRead : IsRead depth text guard level) :
    Reads level.followers (level.reader depth) text guard := by
  cases level with
  | disjunction => exact ReadsOn.reads isRead (by decide) (by decide)
  | conjunction => exact ReadsOn.reads isRead (by decide) (by decide)
  | unary => exact isRead
  | primary => exact isRead

theorem readUnary_alone {primary : Reader Guard} (reads : Reads marks primary text guard)
    (begins : ∃ c others, text = c :: others ∧ c ∈ Level.openings .primary) :
    Reads marks (readUnary primary) text guard := by
  intro rest stops
  obtain ⟨c, others, rfl, member⟩ := begins
  obtain ⟨left, isLeft, read⟩ := reads stops
  have notSign : c ≠ '!' := by
    rintro rfl
    exact absurd member (by decide)
  refine ⟨left, isLeft, ?_⟩
  rw [List.cons_append, readUnary_plain primary (Level.isBlank_of_mem_openings member)
    (fun isSign => notSign isSign.1)]
  exact read

theorem readUnary_negation {primary : Reader Guard} {inner : Guard} {level : Level}
    (reads : Reads marks (readUnary primary) part inner)
    (begins : ∃ c others, part = c :: others ∧ c ∈ level.openings)
    (row : InRow ["!".toList, part] text) :
    Reads marks (readUnary primary) text (negation inner) := by
  intro rest stops
  obtain ⟨blanks, areBlanks, rfl⟩ := row.exists_of_two
  obtain ⟨left, isLeft, read⟩ := reads stops
  refine ⟨left, isLeft, ?_⟩
  have notEqual : (blanks ++ (part ++ rest)).head? ≠ some '=' := by
    obtain ⟨c, others, rfl, member⟩ := begins
    exact head?_blanks_ne areBlanks rfl (Level.ne_equal_of_mem_openings member)
  have begun : "!".toList ++ (blanks ++ part) ++ rest = '!' :: (blanks ++ (part ++ rest)) := by
    simp
  rw [begun, readUnary_sign primary notEqual, readUnary_blanks primary areBlanks, read]
  rfl

theorem readActive_append {state : String} {others : List Char} (areBlanks : AreBlanks blanks)
    (areOthers : AreBlanks others) (spelled : SpellsString Escaping part state) :
    readActive (blanks ++ (part ++ (others ++ ')' :: rest))) = .ok (active state, rest) := by
  have kept : skipBlanks (part ++ (others ++ ')' :: rest)) = part ++ (others ++ ')' :: rest) := by
    obtain ⟨quote, isQuote, -, rfl⟩ := spelled
    rcases isQuote with rfl | rfl
    · rfl
    · rfl
  have closed : skipBlanks (others ++ ')' :: rest) = ')' :: rest := by
    rw [Text.skipBlanks_append areOthers]
    rfl
  simp only [readActive, Text.skipBlanks_append areBlanks, kept, readString_append spelled]
  simp only [bind, Except.bind, closed]

section

variable {nested : Reader Guard}

theorem readPrimary_active {state : String} (spelled : SpellsString Escaping part state)
    (row : InRow ["In(".toList, part, ")".toList] text) :
    Reads marks (readPrimary nested) text (active state) := by
  intro rest _
  obtain ⟨blanks, others, areBlanks, areOthers, rfl⟩ := row.exists_of_three
  refine ⟨rest, .inl rfl, ?_⟩
  rw [← readActive_append areBlanks areOthers spelled]
  simp only [List.append_assoc]
  rfl

theorem readPrimary_literal (value : Bool) (subset : marks ⊆ signs) :
    Reads marks (readPrimary nested) (toString value).toList (literal value) := by
  intro rest stops
  refine ⟨rest, .inl rfl, ?_⟩
  cases value with
  | true =>
      have skipped : skipKeyword? "true" ('t' :: 'r' :: 'u' :: 'e' :: rest) = some rest :=
        skipKeyword?_append "true" (stops.endsName subset)
      have notActive : skip? "In(" ('t' :: 'r' :: 'u' :: 'e' :: rest) = none := rfl
      have front : skipBlanks ('t' :: 'r' :: 'u' :: 'e' :: rest) =
          't' :: 'r' :: 'u' :: 'e' :: rest := rfl
      show readPrimary nested ('t' :: 'r' :: 'u' :: 'e' :: rest) = _
      simp [readPrimary, front, notActive, skipped]
  | false =>
      have skipped : skipKeyword? "false" ('f' :: 'a' :: 'l' :: 's' :: 'e' :: rest) = some rest :=
        skipKeyword?_append "false" (stops.endsName subset)
      have notTrue : skipKeyword? "true" ('f' :: 'a' :: 'l' :: 's' :: 'e' :: rest) = none := rfl
      have notActive : skip? "In(" ('f' :: 'a' :: 'l' :: 's' :: 'e' :: rest) = none := rfl
      have front : skipBlanks ('f' :: 'a' :: 'l' :: 's' :: 'e' :: rest) =
          'f' :: 'a' :: 'l' :: 's' :: 'e' :: rest := rfl
      show readPrimary nested ('f' :: 'a' :: 'l' :: 's' :: 'e' :: rest) = _
      simp [readPrimary, front, notActive, notTrue, skipped]

theorem readPrimary_truthy {field : Field} (named : SpellsField text field) :
    Reads [')', '|', '&'] (readPrimary nested) text (truthy field) := by
  intro rest stops
  refine ⟨skipBlanks rest, .inr rfl, ?_⟩
  rw [readPrimary_of_field named, readComparison_alone named stops]

/-- A comparison is read as a row: its field, its sign and what it compares with. -/
theorem reads_comparison {name sign : List Char} {field : Field} (named : SpellsField name field)
    (row : InRow [name, sign, part] text) (subset : marks ⊆ signs)
    (read : ∀ {blanks others rest : List Char}, AreBlanks blanks → AreBlanks others →
      EndsName rest →
      readComparison (name ++ (blanks ++ (sign ++ (others ++ (part ++ rest))))) = .ok (guard, rest)) :
    Reads marks (readPrimary nested) text guard := by
  intro rest stops
  obtain ⟨blanks, others, areBlanks, areOthers, rfl⟩ := row.exists_of_three
  refine ⟨rest, .inl rfl, ?_⟩
  simp only [List.append_assoc]
  rw [readPrimary_of_field named, read areBlanks areOthers (stops.endsName subset)]

theorem readPrimary_equal {name : List Char} {field : Field} {value : Json.Value}
    (named : SpellsField name field) (valued : SpellsValue Escaping part value)
    (row : InRow [name, "==".toList, part] text) (subset : marks ⊆ signs) :
    Reads marks (readPrimary nested) text (equal field value) := by
  apply reads_comparison named row subset
  intro blanks others rest areBlanks areOthers ends
  rw [readComparison_equal named areBlanks, readValue_blanks areOthers, readValue_append valued ends]
  rfl

theorem readPrimary_unequal {name : List Char} {field : Field} {value : Json.Value}
    (named : SpellsField name field) (valued : SpellsValue Escaping part value)
    (row : InRow [name, "!=".toList, part] text) (subset : marks ⊆ signs) :
    Reads marks (readPrimary nested) text (unequal field value) := by
  apply reads_comparison named row subset
  intro blanks others rest areBlanks areOthers ends
  rw [readComparison_unequal named areBlanks, readValue_blanks areOthers,
    readValue_append valued ends]
  rfl

theorem readPrimary_compare {name : List Char} {field : Field} {bound : Float} (order : Comparison)
    (named : SpellsField name field) (bounded : SpellsNumber part bound)
    (row : InRow [name, order.sign.toList, part] text) (subset : marks ⊆ signs) :
    Reads marks (readPrimary nested) text (compare order field bound) := by
  apply reads_comparison named row subset
  intro blanks others rest areBlanks areOthers ends
  have notEqual : (others ++ (part ++ rest)).head? ≠ some '=' := by
    obtain ⟨c, digits, rfl, isFirst⟩ := exists_first_of_number bounded
    exact head?_blanks_ne areOthers rfl (ne_of_isFirst isFirst (by decide)).symm
  rw [readComparison_compare named areBlanks order notEqual, readNumber_blanks areOthers,
    readNumber_append bounded ends]
  rfl

/-- Blanks at the front do not matter to the reader. -/
def IgnoresBlanks (reader : Reader Guard) : Prop :=
  ∀ ⦃blanks : List Char⦄, AreBlanks blanks → ∀ input, reader (blanks ++ input) = reader input

theorem readPrimary_parentheses (reads : Reads [')'] nested part guard)
    (ignores : IgnoresBlanks nested) (row : InRow ["(".toList, part, ")".toList] text) :
    Reads marks (readPrimary nested) text guard := by
  intro rest _
  obtain ⟨blanks, others, areBlanks, areOthers, rfl⟩ := row.exists_of_three
  have stopped : Stops [')'] (others ++ ')' :: rest) :=
    stops_append areOthers rfl List.mem_cons_self
  obtain ⟨left, isLeft, read⟩ := reads stopped
  have closed : skipBlanks left = ')' :: rest := by
    rw [isLeft.skipBlanks_eq, Text.skipBlanks_append areOthers]
    rfl
  refine ⟨rest, .inl rfl, ?_⟩
  have opened : skipBlanks ("(".toList ++ (blanks ++ (part ++ (others ++ ')' :: rest)))) =
      '(' :: (blanks ++ (part ++ (others ++ ')' :: rest))) := rfl
  rw [show "(".toList ++ (blanks ++ (part ++ (others ++ ")".toList))) ++ rest =
    "(".toList ++ (blanks ++ (part ++ (others ++ ')' :: rest))) by simp]
  simp only [readPrimary, opened, ignores areBlanks, read]
  simp only [bind, Except.bind, closed]

theorem readWithin_ignoresBlanks (depth : Nat) : IgnoresBlanks (readWithin depth) := by
  intro blanks areBlanks input
  cases depth with
  | zero => rfl
  | succ depth =>
      simp only [readWithin, readChain, readUnary, takeNegations_blanks areBlanks]

end

variable {depth : Nat} {level : Level}

/-- By induction on the spelling.  Parentheses are nested less deep than the text is long. -/
theorem Spells.isRead (spelled : Spells Escaping level text guard)
    (within : text.length ≤ depth + 1) : IsRead depth text guard level := by
  induction spelled generalizing depth with
  | ofConjunction _ ih => exact Reads.readsOn (IsRead.reads (ih within))
  | either _ right row leftIH rightIH =>
      have lengths := row.length_le
      simp only [List.map_cons, List.sum_cons] at lengths
      have leftRead : IsRead depth _ _ .disjunction := leftIH (by omega)
      have rightRead : IsRead depth _ _ .conjunction := rightIH (by omega)
      exact ReadsOn.more leftRead rightRead.reads right.skipBlanks_append (by decide) rfl row
  | ofUnary _ ih => exact Reads.readsOn (IsRead.reads (ih within))
  | both _ right row leftIH rightIH =>
      have lengths := row.length_le
      simp only [List.map_cons, List.sum_cons] at lengths
      have leftRead : IsRead depth _ _ .conjunction := leftIH (by omega)
      have rightRead : IsRead depth _ _ .unary := rightIH (by omega)
      exact ReadsOn.more leftRead rightRead.reads right.skipBlanks_append (by decide) rfl row
  | ofPrimary spelled ih => exact readUnary_alone (ih within) spelled.exists_first
  | negation spelled row ih =>
      have lengths := row.length_le
      simp only [List.map_cons, List.sum_cons] at lengths
      exact readUnary_negation (ih (by omega)) spelled.exists_first row
  | parentheses inner row ih =>
      have lengths := row.length_le
      simp only [List.map_cons, List.sum_cons, List.map_nil, List.sum_nil,
        show "(".toList.length = 1 from rfl, show ")".toList.length = 1 from rfl] at lengths
      cases depth with
      | zero => omega
      | succ depth =>
          have enclosed : IsRead depth _ _ .disjunction := ih (by omega)
          exact readPrimary_parentheses enclosed.reads (readWithin_ignoresBlanks _) row
  | active quotes row => exact readPrimary_active quotes row
  | literal value => exact readPrimary_literal value (by decide)
  | truthy named => exact readPrimary_truthy named
  | equal named valued row => exact readPrimary_equal named valued row (by decide)
  | unequal named valued row => exact readPrimary_unequal named valued row (by decide)
  | compare order named bounded row => exact readPrimary_compare order named bounded row (by decide)

/-- What spells a guard from the first character to the last, blanks aside, is parsed. -/
theorem parse_of_spells {text : String}
    (spelled : Spells Escaping .disjunction (Text.trimChars text.toList) guard) :
    parse text = .ok guard := by
  obtain ⟨first, others, front, -⟩ := spelled.exists_first
  have isRead : IsRead others.length (Text.trimChars text.toList) guard .disjunction :=
    spelled.isRead (by rw [front]; exact Nat.le_refl _)
  obtain ⟨left, isLeft, read⟩ := isRead.reads stops_nil
  obtain rfl : left = [] := isLeft.elim id id
  rw [List.append_nil, front] at read
  have inFull : readWithin (first :: others).length (first :: others) = .ok (guard, []) := read
  simp only [parse, front, List.isEmpty_cons, inFull]
  rfl

theorem parse_eq_ok_iff {text : String} :
    parse text = .ok guard ↔
      Spells Escaping .disjunction (Text.trimChars text.toList) guard :=
  ⟨spells_of_parse, parse_of_spells⟩

end Guard

end Statechart
