import Statechart.Text.Alphanumeric
import Statechart.Text.Blank

/-!
# Blanks around and between other characters

Skipping blanks takes all blanks from the front and nothing else, so it does
nothing to what starts with another character.  Trimming does this at both ends.
No blank is a character of a path.
-/

namespace Statechart

namespace Text

variable {blanks input rest : List Char} {c : Char}

/-- Blanks only, or no characters at all. -/
def AreBlanks (chars : List Char) : Prop :=
  ∀ c ∈ chars, isBlank c = true

/-- The ranges of blank characters, both ends included. -/
def blankRanges : List (Nat × Nat) :=
  [(0x09, 0x0d), (0x20, 0x20), (0x85, 0x85), (0xa0, 0xa0), (0x1680, 0x1680), (0x2000, 0x200a),
    (0x2028, 0x2029), (0x202f, 0x202f), (0x205f, 0x205f), (0x3000, 0x3000)]

theorem exists_mem_blankRanges (blank : isBlank c = true) :
    ∃ range ∈ blankRanges, range.1 ≤ c.toNat ∧ c.toNat ≤ range.2 := by
  simp only [isBlank, Bool.or_eq_true, Bool.and_eq_true, decide_eq_true_eq, beq_iff_eq] at blank
  simp only [blankRanges, List.mem_cons, List.not_mem_nil, or_false, exists_eq_or_imp,
    exists_eq_left]
  omega

set_option maxRecDepth 4000 in
theorem blankRanges_apart : alphanumericRanges.all (fun range => blankRanges.all
    (fun blank => range.2.blt blank.1 || blank.2.blt range.1)) = true := by
  decide +kernel

theorem isAlphanumeric_of_isBlank (blank : isBlank c = true) : isAlphanumeric c = false := by
  rw [isAlphanumeric]
  split
  · next isAscii =>
      have notLetter : ∀ code ∈ [9, 10, 11, 12, 13, 32], (Char.ofNat code).isAlphanum = false := by
        decide
      have same : Char.ofNat c.toNat = c := Char.ofNat_toNat c
      refine same ▸ notLetter c.toNat ?_
      simp only [isBlank, Bool.or_eq_true, Bool.and_eq_true, decide_eq_true_eq,
        beq_iff_eq] at blank
      simp only [List.mem_cons, List.not_mem_nil]
      omega
  · rw [List.any_eq_false]
    intro range isRange inRange
    obtain ⟨blanks, isBlanks, above, below⟩ := exists_mem_blankRanges blank
    have apart := List.all_eq_true.1 (List.all_eq_true.1 blankRanges_apart range isRange) _ isBlanks
    simp only [Bool.or_eq_true, Nat.blt_eq, Bool.and_eq_true, decide_eq_true_eq] at apart inRange
    omega

theorem isPathChar_of_isBlank (blank : isBlank c = true) : isPathChar c = false := by
  have notMark : c ≠ '_' ∧ c ≠ '.' := by
    constructor
    · rintro rfl
      exact absurd blank (by decide)
    · rintro rfl
      exact absurd blank (by decide)
  simp [isPathChar, isAlphanumeric_of_isBlank blank, notMark]

theorem isBlank_of_isPathChar (inPath : isPathChar c = true) : isBlank c = false := by
  cases blank : isBlank c with
  | false => rfl
  | true => exact absurd (inPath.symm.trans (isPathChar_of_isBlank blank)) Bool.noConfusion

/-! ## Skipping -/

@[simp]
theorem areBlanks_nil : AreBlanks [] :=
  fun _ member => absurd member List.not_mem_nil

theorem areBlanks_cons : AreBlanks (c :: rest) ↔ isBlank c = true ∧ AreBlanks rest :=
  List.forall_mem_cons

@[simp]
theorem skipBlanks_nil : skipBlanks [] = [] :=
  rfl

theorem skipBlanks_cons_of_blank (blank : isBlank c = true) (rest : List Char) :
    skipBlanks (c :: rest) = skipBlanks rest :=
  List.dropWhile_cons_of_pos blank

theorem skipBlanks_cons (notBlank : isBlank c = false) (rest : List Char) :
    skipBlanks (c :: rest) = c :: rest :=
  List.dropWhile_cons_of_neg (by simp [notBlank])

/-- Blanks at the front do not matter. -/
theorem skipBlanks_append (areBlanks : AreBlanks blanks) (rest : List Char) :
    skipBlanks (blanks ++ rest) = skipBlanks rest := by
  induction blanks with
  | nil => rfl
  | cons first others ih =>
      obtain ⟨blank, othersBlank⟩ := areBlanks_cons.1 areBlanks
      rw [List.cons_append, skipBlanks_cons_of_blank blank, ih othersBlank]

/-- What is skipped are blanks, and no blank comes next. -/
theorem exists_skipped (input : List Char) :
    ∃ blanks, AreBlanks blanks ∧ input = blanks ++ skipBlanks input := by
  induction input with
  | nil => exact ⟨[], areBlanks_nil, rfl⟩
  | cons first rest ih =>
      cases blank : isBlank first with
      | false => exact ⟨[], areBlanks_nil, by rw [skipBlanks_cons blank, List.nil_append]⟩
      | true =>
          obtain ⟨blanks, areBlanks, split⟩ := ih
          refine ⟨first :: blanks, areBlanks_cons.2 ⟨blank, areBlanks⟩, ?_⟩
          rw [skipBlanks_cons_of_blank blank, List.cons_append, ← split]

theorem isBlank_of_skipBlanks (skipped : skipBlanks input = c :: rest) : isBlank c = false := by
  induction input with
  | nil => cases skipped
  | cons first others ih =>
      cases blank : isBlank first with
      | false =>
          rw [skipBlanks_cons blank] at skipped
          cases skipped
          exact blank
      | true => exact ih (skipBlanks_cons_of_blank blank others ▸ skipped)

@[simp]
theorem skipBlanks_skipBlanks (input : List Char) :
    skipBlanks (skipBlanks input) = skipBlanks input := by
  cases skipped : skipBlanks input with
  | nil => rfl
  | cons first rest => exact skipBlanks_cons (isBlank_of_skipBlanks skipped) rest

theorem length_skipBlanks_le (input : List Char) : (skipBlanks input).length ≤ input.length :=
  (List.dropWhile_suffix isBlank).length_le

theorem skipBlanks_subset (input : List Char) : skipBlanks input ⊆ input :=
  (List.dropWhile_suffix isBlank).subset

theorem areBlanks_of_skipBlanks_eq_nil (nothing : skipBlanks input = []) : AreBlanks input := by
  obtain ⟨blanks, areBlanks, split⟩ := exists_skipped input
  rw [nothing, List.append_nil] at split
  exact split ▸ areBlanks

/-! ## Trimming -/

theorem skipBlanks_eq_self_iff :
    skipBlanks input = input ↔ ∀ c ∈ input.head?, isBlank c = false := by
  cases input with
  | nil => simp
  | cons first rest =>
      rw [List.head?_cons]
      constructor
      · rintro kept c isFirst
        exact Option.some.inj isFirst ▸ isBlank_of_skipBlanks kept
      · exact fun notBlank => skipBlanks_cons (notBlank first rfl) rest

/-- Neither the first nor the last character is a blank. -/
structure IsTrimmed (chars : List Char) : Prop where
  first : ∀ c ∈ chars.head?, isBlank c = false
  last : ∀ c ∈ chars.getLast?, isBlank c = false

theorem IsTrimmed.trimChars_eq (trimmed : IsTrimmed input) : trimChars input = input := by
  have reversed : skipBlanks input.reverse = input.reverse :=
    skipBlanks_eq_self_iff.2 (by simpa using trimmed.last)
  rw [trimChars, skipBlanks_eq_self_iff.2 trimmed.first, reversed, List.reverse_reverse]

theorem isTrimmed_trimChars (input : List Char) : IsTrimmed (trimChars input) := by
  rw [trimChars]
  constructor
  · -- Unless nothing is left, what is cut off at the end does not reach the first character.
    intro c isFirst
    obtain ⟨blanks, -, split⟩ := exists_skipped (skipBlanks input).reverse
    have front : skipBlanks input =
        (skipBlanks (skipBlanks input).reverse).reverse ++ blanks.reverse := by
      rw [← List.reverse_append, ← split, List.reverse_reverse]
    apply skipBlanks_eq_self_iff.1 (skipBlanks_skipBlanks input)
    rw [front, List.head?_append, isFirst]
    rfl
  · intro c isLast
    rw [List.getLast?_reverse] at isLast
    exact skipBlanks_eq_self_iff.1 (skipBlanks_skipBlanks _) c isLast

theorem trimChars_subset (input : List Char) : trimChars input ⊆ input := by
  intro c member
  have skippedTwice : c ∈ skipBlanks (skipBlanks input).reverse := List.mem_reverse.1 member
  have skipped : c ∈ skipBlanks input := List.mem_reverse.1 (skipBlanks_subset _ skippedTwice)
  exact skipBlanks_subset input skipped

/-! ## Paths -/

/-- A dotted path of alphanumeric characters and underscores. -/
structure IsFieldPath (path : String) : Prop where
  nonempty : path.toList ≠ []
  chars : ∀ c ∈ path.toList, isPathChar c = true

instance (path : String) : Decidable (IsFieldPath path) :=
  decidable_of_iff (path.toList ≠ [] ∧ path.toList.all isPathChar = true)
    ⟨fun both => ⟨both.1, List.all_eq_true.1 both.2⟩,
      fun isPath => ⟨isPath.nonempty, List.all_eq_true.2 isPath.chars⟩⟩

theorem dottedParts_ne_nil (path : String) : dottedParts path ≠ [] := by
  rw [dottedParts, Ne, List.map_eq_nil_iff]
  exact pieces_ne_nil _ _

theorem after?_append (beginning rest : String) :
    after? beginning (beginning ++ rest) = some rest := by
  rw [after?, String.toList_append]
  simp

end Text

end Statechart
