import Statechart.Proofs.Guard.Soundness

/-!
# Reading words, strings, numbers and fields

A field, a keyword and a numeral go as far as their characters do, so what comes
after one matters: a reader takes exactly what is spelled if the next character
does not continue it.  A string ends at its quote whatever comes next.
-/

namespace Statechart

open Text (AreBlanks skipBlanks)

namespace Guard

variable {input rest part text blanks content : List Char} {marks : List Char} {c : Char}

/-- Blanks aside, one of the marks comes next if anything does. -/
def Stops (marks rest : List Char) : Prop :=
  ∀ c ∈ (skipBlanks rest).head?, c ∈ marks

/-- No path, keyword or numeral goes on with the next character. -/
def EndsName (rest : List Char) : Prop :=
  ∀ c ∈ rest.head?, Text.isPathChar c = false

/-- The characters that may come after a name, if only after blanks. -/
def signs : List Char :=
  [')', '|', '&', '=', '!', '<', '>']

theorem stops_nil : Stops marks [] :=
  fun _ isFirst => nomatch isFirst

theorem Stops.mono {others : List Char} (stops : Stops marks rest) (subset : marks ⊆ others) :
    Stops others rest :=
  fun c isFirst => subset (stops c isFirst)

theorem stops_append (areBlanks : AreBlanks blanks) (notBlank : Text.isBlank c = false)
    (member : c ∈ marks) : Stops marks (blanks ++ c :: rest) := by
  intro next isNext
  rw [Text.skipBlanks_append areBlanks, Text.skipBlanks_cons notBlank] at isNext
  exact Option.some.inj isNext ▸ member

theorem endsName_of_mem_signs (member : c ∈ signs) : EndsName (c :: rest) := by
  have none : signs.all (fun c => !Text.isPathChar c) = true := by decide
  have notPath : Text.isPathChar c = false := by simpa using List.all_eq_true.1 none c member
  intro next isNext
  exact Option.some.inj isNext ▸ notPath

theorem Stops.endsName (stops : Stops marks rest) (subset : marks ⊆ signs) : EndsName rest := by
  cases rest with
  | nil => exact fun _ isFirst => nomatch isFirst
  | cons first others =>
      cases blank : Text.isBlank first with
      | true =>
          intro c isFirst
          exact Option.some.inj isFirst ▸ Text.isPathChar_of_isBlank blank
      | false =>
          refine endsName_of_mem_signs (subset (stops first ?_))
          rw [Text.skipBlanks_cons blank]
          rfl

theorem endsName_append (areBlanks : AreBlanks blanks) (member : c ∈ signs) :
    EndsName (blanks ++ c :: rest) := by
  have none : signs.all (fun c => !Text.isBlank c) = true := by decide
  have notBlank : Text.isBlank c = false := by simpa using List.all_eq_true.1 none c member
  exact (stops_append areBlanks notBlank member).endsName (List.Subset.refl signs)

/-! ## Words, strings and numbers -/

@[simp]
theorem skip?_append (beginning : String) (rest : List Char) :
    skip? beginning (beginning.toList ++ rest) = some rest := by
  simp [skip?]

theorem EndsName.isNameChar (ends : EndsName rest) (isFirst : c ∈ rest.head?) :
    Text.isNameChar c = false := by
  have notPath := ends c isFirst
  rw [Text.isPathChar, Bool.or_eq_false_iff] at notPath
  exact notPath.1

theorem skipKeyword?_append (word : String) (ends : EndsName rest) :
    skipKeyword? word (word.toList ++ rest) = some rest := by
  rw [skipKeyword?, skip?_append]
  cases rest with
  | nil => rfl
  | cons next others => simp [ends.isNameChar rfl]

theorem skip?_of_head {beginning : String} {first : Char}
    (begins : beginning.toList.head? = some first) (differs : first ≠ c) (rest : List Char) :
    skip? beginning (c :: rest) = none := by
  obtain ⟨others, isBeginning⟩ : ∃ others, beginning.toList = first :: others :=
    List.head?_eq_some_iff.1 begins
  simp [skip?, isBeginning, differs]

theorem skipKeyword?_of_head {word : String} {first : Char}
    (begins : word.toList.head? = some first) (differs : first ≠ c) (rest : List Char) :
    skipKeyword? word (c :: rest) = none := by
  rw [skipKeyword?, skip?_of_head begins differs]

theorem readQuoted_cons {quote : Char} (notBackslash : c ≠ '\\') (rest : List Char) :
    readQuoted quote (c :: rest) =
      if c = quote then some ([], rest)
      else (readQuoted quote rest).map (fun found => (c :: found.1, found.2)) := by
  rw [readQuoted]
  · exact fun isBackslash => absurd isBackslash notBackslash
  · exact fun _ _ isBackslash => absurd isBackslash notBackslash

theorem readQuoted_append {quote : Char} (notBackslash : quote ≠ '\\')
    (escaping : Escaping quote content) :
    readQuoted quote (content ++ quote :: rest) = some (content, rest) := by
  induction escaping with
  | nil => rw [List.nil_append, readQuoted_cons notBackslash, if_pos rfl]
  | cons notQuote notEscape others ih =>
      rw [List.cons_append, readQuoted_cons notEscape, if_neg notQuote, ih]
      rfl
  | escape c others ih =>
      rw [List.cons_append, List.cons_append, readQuoted, ih]
      rfl

theorem readString_append {state : String} (spelled : SpellsString Escaping text state) :
    readString (text ++ rest) = .ok (state, rest) := by
  obtain ⟨quote, isQuote, escaping, rfl⟩ := spelled
  have notBackslash : quote ≠ '\\' := by
    rintro rfl
    simp at isQuote
  simp [readString, isQuote, readQuoted_append notBackslash escaping, String.ofList_toList]

theorem takeWhile_append {test : Char → Bool} (taken : ∀ c ∈ part, test c = true)
    (stops : ∀ c ∈ rest.head?, test c = false) : (part ++ rest).takeWhile test = part := by
  rw [List.takeWhile_append_of_pos taken]
  cases rest with
  | nil => simp
  | cons next others => simp [stops next rfl]

theorem toNat_lt_of_isDigit (digit : c.isDigit = true) : c.toNat < 128 := by
  simp only [Char.isDigit, Bool.and_eq_true, decide_eq_true_eq, UInt32.le_iff_toNat_le] at digit
  exact Nat.lt_of_le_of_lt digit.2 (by decide)

theorem isPathChar_of_isDigit (digit : c.isDigit = true) : Text.isPathChar c = true := by
  simp [Text.isPathChar, Text.isAlphanumeric, Char.isAlphanum, digit, toNat_lt_of_isDigit digit]

theorem EndsName.isDigit (ends : EndsName rest) : ∀ c ∈ rest.head?, c.isDigit = false := by
  intro c isFirst
  cases digit : c.isDigit with
  | false => rfl
  | true => exact (isPathChar_of_isDigit digit).symm.trans (ends c isFirst)

/-- The characters of a numeral after its sign. -/
def Numeral.unsigned (numeral : Numeral) : List Char :=
  numeral.whole ++ (numeral.fraction.map ('.' :: ·)).getD []

theorem Numeral.chars_eq (numeral : Numeral) :
    numeral.chars = (if numeral.isMinus then ['-'] else []) ++ numeral.unsigned := by
  rw [chars, unsigned, List.append_assoc]
  cases numeral.fraction with
  | none => rfl
  | some fraction => rfl

theorem Numeral.exists_unsigned_first {numeral : Numeral} (someDigit : numeral.digits ≠ [])
    (digits : ∀ c ∈ numeral.digits, c.isDigit = true) :
    ∃ c others, numeral.unsigned = c :: others ∧ (c = '.' ∨ c.isDigit = true) := by
  obtain ⟨isMinus, whole, fraction⟩ := numeral
  cases whole with
  | cons c others => exact ⟨c, _, rfl, .inr (digits c (by simp [Numeral.digits]))⟩
  | nil =>
      cases fraction with
      | none => exact absurd rfl someDigit
      | some fraction => exact ⟨'.', fraction, rfl, .inl rfl⟩

/-- A numeral is taken as a whole unless its sign is missing and one follows. -/
theorem Numeral.take_append {numeral : Numeral}
    (digits : ∀ c ∈ numeral.digits, c.isDigit = true) (ends : EndsName rest)
    (noSign : (numeral.unsigned ++ rest).head? ≠ some '-') :
    Numeral.take (numeral.chars ++ rest) = (numeral, rest) := by
  have signed : takeSign (numeral.chars ++ rest) =
      (numeral.isMinus, numeral.unsigned ++ rest) := by
    rw [chars_eq]
    cases numeral.isMinus with
    | true => rfl
    | false =>
        show takeSign (numeral.unsigned ++ rest) = (false, numeral.unsigned ++ rest)
        unfold takeSign
        split
        · next after front => exact absurd (front ▸ rfl) noSign
        · rfl
  obtain ⟨isMinus, whole, fraction⟩ := numeral
  obtain ⟨wholeDigits, fractionDigits⟩ := List.forall_mem_append.1 digits
  have ordered : unsigned ⟨isMinus, whole, fraction⟩ ++ rest =
      whole ++ ((fraction.map ('.' :: ·)).getD [] ++ rest) := List.append_assoc ..
  have wholeTaken :
      (unsigned ⟨isMinus, whole, fraction⟩ ++ rest).takeWhile Char.isDigit = whole := by
    rw [ordered]
    apply takeWhile_append wholeDigits
    cases fraction with
    | none => exact ends.isDigit
    | some fraction => simp [Char.isDigit]
  fun_cases Numeral.take (Numeral.chars ⟨isMinus, whole, fraction⟩ ++ rest) with
  | case1 minus after isSigned front following point taken =>
      cases isSigned.symm.trans signed
      rw [show front = whole from wholeTaken, ordered, List.drop_left] at point
      cases fraction with
      | none => exact absurd (ends '.' (by simp [show rest = '.' :: following from point])) (by decide)
      | some fraction =>
          obtain rfl : fraction ++ rest = following := (List.cons.inj point).2
          have fractionTaken : taken = fraction := takeWhile_append fractionDigits ends.isDigit
          rw [show front = whole from wholeTaken, fractionTaken, List.drop_left]
  | case2 minus after isSigned front noPoint =>
      cases isSigned.symm.trans signed
      rw [show front = whole from wholeTaken, ordered, List.drop_left] at noPoint ⊢
      cases fraction with
      | none => rfl
      | some fraction => exact absurd rfl (noPoint _)

/-- A number starts with its sign, its point or a digit. -/
theorem exists_first_of_number {x : Float} (spelled : SpellsNumber text x) :
    ∃ c others, text = c :: others ∧ (c = '-' ∨ c = '.' ∨ c.isDigit = true) := by
  obtain ⟨numeral, someDigit, digits, rfl, -⟩ := spelled
  obtain ⟨first, others, front, isFirst⟩ := Numeral.exists_unsigned_first someDigit digits
  rw [numeral.chars_eq, front]
  cases numeral.isMinus with
  | true => exact ⟨'-', _, rfl, .inl rfl⟩
  | false => exact ⟨first, others, rfl, .inr isFirst⟩

theorem ne_of_isFirst {other : Char} (isFirst : c = '-' ∨ c = '.' ∨ c.isDigit = true)
    (differs : other ≠ '-' ∧ other ≠ '.' ∧ other.isDigit = false) : other ≠ c := by
  rintro rfl
  rcases isFirst with rfl | rfl | digit
  · exact differs.1 rfl
  · exact differs.2.1 rfl
  · exact Bool.noConfusion (digit.symm.trans differs.2.2)

theorem isBlank_of_isFirst (isFirst : c = '-' ∨ c = '.' ∨ c.isDigit = true) :
    Text.isBlank c = false := by
  rcases isFirst with rfl | rfl | digit
  · rfl
  · rfl
  · exact Text.isBlank_of_isPathChar (isPathChar_of_isDigit digit)

theorem readNumber_blanks (areBlanks : AreBlanks blanks) (input : List Char) :
    readNumber (blanks ++ input) = readNumber input := by
  rw [readNumber, readNumber, Text.skipBlanks_append areBlanks]

theorem readNumber_append {x : Float} (spelled : SpellsNumber text x) (ends : EndsName rest) :
    readNumber (text ++ rest) = .ok (x, rest) := by
  have kept : skipBlanks (text ++ rest) = text ++ rest := by
    obtain ⟨c, others, rfl, isFirst⟩ := exists_first_of_number spelled
    exact Text.skipBlanks_cons (isBlank_of_isFirst isFirst) _
  obtain ⟨numeral, someDigit, digits, rfl, rfl⟩ := spelled
  have noSign : (numeral.unsigned ++ rest).head? ≠ some '-' := by
    obtain ⟨first, others, front, isFirst⟩ := Numeral.exists_unsigned_first someDigit digits
    rw [front]
    intro isSign
    cases isSign
    simp [Char.isDigit] at isFirst
  simp only [readNumber, kept, Numeral.take_append digits ends noSign]
  rw [if_neg (by simpa using someDigit)]

theorem readValue_blanks (areBlanks : AreBlanks blanks) (input : List Char) :
    readValue (blanks ++ input) = readValue input := by
  rw [readValue, readValue, Text.skipBlanks_append areBlanks]

theorem readValue_of_quote (isQuote : c = '"' ∨ c = '\'') (rest : List Char) :
    readValue (c :: rest) =
      (readString (c :: rest)).map (fun found => (.string found.1, found.2)) := by
  rcases isQuote with rfl | rfl
  · rfl
  · rfl

theorem readValue_of_isFirst (isFirst : c = '-' ∨ c = '.' ∨ c.isDigit = true) (rest : List Char) :
    readValue (c :: rest) = (do
      let (x, rest) ← readNumber (c :: rest)
      if x.isInf then
        .error (.infiniteNumber (x < 0))
      else
        .ok (.number (.real x), rest)) := by
  have noKeyword : ∀ {word : String} {first : Char}, word.toList.head? = some first →
      (first ≠ '-' ∧ first ≠ '.' ∧ first.isDigit = false) →
      skipKeyword? word (c :: rest) = none :=
    fun begins differs => skipKeyword?_of_head begins (ne_of_isFirst isFirst differs) rest
  simp only [readValue, Text.skipBlanks_cons (isBlank_of_isFirst isFirst),
    noKeyword (show "true".toList.head? = some 't' from rfl) (by decide),
    noKeyword (show "false".toList.head? = some 'f' from rfl) (by decide),
    noKeyword (show "null".toList.head? = some 'n' from rfl) (by decide)]
  split
  · next quoted => exact absurd (List.cons.inj quoted).1.symm (ne_of_isFirst isFirst (by decide))
  · next quoted => exact absurd (List.cons.inj quoted).1.symm (ne_of_isFirst isFirst (by decide))
  · rfl

theorem readValue_append {value : Json.Value} (spelled : SpellsValue Escaping text value)
    (ends : EndsName rest) : readValue (text ++ rest) = .ok (value, rest) := by
  cases spelled with
  | bool value =>
      cases value with
      | true =>
          have skipped : skipKeyword? "true" (skipBlanks ((toString true).toList ++ rest)) =
              some rest := skipKeyword?_append "true" ends
          simp only [readValue, skipped]
      | false =>
          have notTrue : skipKeyword? "true" (skipBlanks ((toString false).toList ++ rest)) =
              none := skipKeyword?_of_head rfl (by decide) _
          have skipped : skipKeyword? "false" (skipBlanks ((toString false).toList ++ rest)) =
              some rest := skipKeyword?_append "false" ends
          simp only [readValue, notTrue, skipped]
  | null =>
      have notTrue : skipKeyword? "true" (skipBlanks ("null".toList ++ rest)) = none :=
        skipKeyword?_of_head rfl (by decide) _
      have notFalse : skipKeyword? "false" (skipBlanks ("null".toList ++ rest)) = none :=
        skipKeyword?_of_head rfl (by decide) _
      have skipped : skipKeyword? "null" (skipBlanks ("null".toList ++ rest)) = some rest :=
        skipKeyword?_append "null" ends
      simp only [readValue, notTrue, notFalse, skipped]
  | string spelled =>
      obtain ⟨quote, isQuote, escaping, rfl⟩ := id spelled
      rw [List.cons_append, readValue_of_quote isQuote, ← List.cons_append,
        readString_append spelled]
      rfl
  | number spelled finite =>
      obtain ⟨c, others, rfl, isFirst⟩ := exists_first_of_number spelled
      obtain ⟨numeral, _, _, _, rfl⟩ := id spelled
      rw [numeral.isFinite_value, Bool.not_eq_true'] at finite
      rw [List.cons_append, readValue_of_isFirst isFirst, ← List.cons_append,
        readNumber_append spelled ends]
      exact if_neg (Bool.eq_false_iff.1 finite)

/-! ## Fields -/

theorem readField_append {field : Field} (spelled : SpellsField text field)
    (ends : EndsName rest) : readField (text ++ rest) = .ok (field, rest) := by
  obtain ⟨isPath, rfl⟩ := spelled
  obtain ⟨root, path⟩ := field
  have taken : (path.toList ++ rest).takeWhile Text.isPathChar = path.toList :=
    takeWhile_append isPath.chars ends
  have nonempty : path.toList.isEmpty = false := by simpa using isPath.nonempty
  rw [List.append_assoc]
  cases root with
  | context =>
      have skipped : skip? "ctx." (FieldRoot.context.beginning.toList ++ (path.toList ++ rest)) =
          some (path.toList ++ rest) := skip?_append "ctx." _
      simp [readField, skipped, taken, nonempty, -String.toList_eq_nil_iff]
  | event =>
      have notContext :
          skip? "ctx." (FieldRoot.event.beginning.toList ++ (path.toList ++ rest)) = none :=
        skip?_of_head rfl (show 'c' ≠ '_' by decide) _
      have skipped : skip? "_event." (FieldRoot.event.beginning.toList ++ (path.toList ++ rest)) =
          some (path.toList ++ rest) := skip?_append "_event." _
      simp [readField, notContext, skipped, taken, nonempty]

end Guard

end Statechart
