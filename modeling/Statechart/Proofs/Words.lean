import Statechart.Text.Blank

/-!
# Words

A word is a text that is not empty and has no blanks.  All words of a text are
words in this sense, and a text is its own only word exactly if it is one.
-/

namespace Statechart

namespace Text

variable {cut : Char → Bool} {input : List Char} {text : String}

/-- A text without blanks. -/
def IsUnbroken (text : String) : Prop :=
  ∀ c ∈ text.toList, isBlank c = false

/-- A text that is not empty and has no blanks. -/
structure IsWord (text : String) : Prop where
  nonempty : text.toList ≠ []
  isUnbroken : IsUnbroken text

instance (text : String) : Decidable (IsUnbroken text) :=
  decidable_of_iff (text.toList.all (fun c => !isBlank c) = true) (by simp [IsUnbroken])

instance (text : String) : Decidable (IsWord text) :=
  decidable_of_iff (text.toList ≠ [] ∧ IsUnbroken text)
    ⟨fun both => ⟨both.1, both.2⟩, fun isWord => ⟨isWord.nonempty, isWord.isUnbroken⟩⟩

/-! ## The words of a text -/

theorem pieces_eq_singleton (uncut : ∀ c ∈ input, cut c = false) : pieces cut input = [input] := by
  induction input with
  | nil => rfl
  | cons c rest ih =>
      obtain ⟨first, others⟩ := List.forall_mem_cons.1 uncut
      rw [pieces, if_neg (Bool.eq_false_iff.1 first), ih others]

/-- No piece has a character at which the text is cut. -/
theorem uncut_of_mem_pieces : ∀ piece ∈ pieces cut input, ∀ c ∈ piece, cut c = false := by
  induction input with
  | nil =>
      intro piece member
      rw [List.mem_singleton.1 member]
      exact fun _ => False.elim ∘ List.not_mem_nil
  | cons c rest ih =>
      cases isCut : cut c with
      | true =>
          rw [pieces, if_pos isCut]
          exact List.forall_mem_cons.2 ⟨fun _ => False.elim ∘ List.not_mem_nil, ih⟩
      | false =>
          rw [pieces, if_neg (Bool.eq_false_iff.1 isCut)]
          cases remaining : pieces cut rest with
          | nil => exact absurd remaining (pieces_ne_nil cut rest)
          | cons piece others =>
              rw [remaining] at ih
              obtain ⟨first, later⟩ := List.forall_mem_cons.1 ih
              exact List.forall_mem_cons.2 ⟨List.forall_mem_cons.2 ⟨isCut, first⟩, later⟩

/-- All words of a text are words. -/
theorem isWord_of_mem_words {word : String} (member : word ∈ words text) : IsWord word := by
  obtain ⟨piece, isKept, rfl⟩ := List.mem_map.1 member
  obtain ⟨isPiece, notEmpty⟩ := List.mem_filter.1 isKept
  constructor
  · rw [String.toList_ofList]
    simpa using notEmpty
  · rw [IsUnbroken, String.toList_ofList]
    exact uncut_of_mem_pieces piece isPiece

/-- A text is its own only word exactly if it is a word. -/
theorem words_eq_singleton_iff : words text = [text] ↔ IsWord text := by
  constructor
  · intro alone
    have member : text ∈ words text := by
      rw [alone]
      exact List.mem_singleton_self text
    exact isWord_of_mem_words member
  · intro isWord
    rw [words, pieces_eq_singleton isWord.isUnbroken]
    simp [isWord.nonempty]

/-! ## Texts made of others -/

theorem isUnbroken_append {first second : String} :
    IsUnbroken (first ++ second) ↔ IsUnbroken first ∧ IsUnbroken second := by
  simp only [IsUnbroken, String.toList_append, List.forall_mem_append]

theorem isBlank_of_isDigit {c : Char} (digit : c.isDigit = true) : isBlank c = false := by
  obtain ⟨least, most⟩ : 48 ≤ c.toNat ∧ c.toNat ≤ 57 := by
    simpa [Char.isDigit, UInt32.le_iff_toNat_le] using digit
  simp only [isBlank, Bool.or_eq_false_iff, Bool.and_eq_false_iff, decide_eq_false_iff_not,
    beq_eq_false_iff_ne]
  omega

/-- A number is written without blanks. -/
theorem isUnbroken_toString (number : Nat) : IsUnbroken (toString number) := by
  intro c member
  rw [Nat.toString_eq_ofList_toDigits, String.toList_ofList] at member
  exact isBlank_of_isDigit (Nat.isDigit_of_mem_toDigits (by decide) (by decide) member)

end Text

end Statechart
