import Statechart.Proofs.Guard.Completeness

/-!
# What a string literal denotes

A backslash keeps a quote from closing the string around it, so any text can be
put between quotes.  Reading takes what stands between the quotes as it is: a
literal with a quote or a backslash in its text denotes the text with its
backslashes.
-/

namespace Statechart

namespace Json.Value

theorem guardEqual_string_iff {value : Json.Value} {text : String} :
    value.guardEqual (.string text) = true ↔ value = .string text := by
  cases value with
  | string other => simp [guardEqual]
  | _ => simp [guardEqual]

end Json.Value

namespace Guard

variable {c : Char}

def escapedChars (chars : List Char) : List Char :=
  chars.flatMap (fun c => if c = '\\' ∨ c = '"' then ['\\', c] else [c])

/-- The text with a backslash before every backslash and every double quote. -/
def escaped (text : String) : String :=
  String.ofList (escapedChars text.toList)

/-- A literal for a text, in double quotes. -/
def quotedLiteral (text : String) : String :=
  "\"" ++ escaped text ++ "\""

theorem escapedChars_cons (c : Char) (rest : List Char) :
    escapedChars (c :: rest) =
      (if c = '\\' ∨ c = '"' then ['\\', c] else [c]) ++ escapedChars rest :=
  List.flatMap_cons

theorem escaping_escapedChars (chars : List Char) : Escaping '"' (escapedChars chars) := by
  induction chars with
  | nil => exact .nil
  | cons first rest ih =>
      rw [escapedChars_cons]
      split
      · exact .escape first ih
      · next plain =>
          obtain ⟨notBackslash, notQuote⟩ := not_or.1 plain
          exact .cons notQuote notBackslash ih

theorem length_le_length_escapedChars (chars : List Char) :
    chars.length ≤ (escapedChars chars).length := by
  induction chars with
  | nil => exact Nat.le_refl _
  | cons first rest ih =>
      rw [escapedChars_cons, List.length_append, List.length_cons]
      split
      · simp only [List.length_cons, List.length_nil]
        omega
      · simp only [List.length_cons, List.length_nil]
        omega

/-- Escaping changes every text it has something to do in, since it makes it longer. -/
theorem escapedChars_eq_self_iff {chars : List Char} :
    escapedChars chars = chars ↔ '\\' ∉ chars ∧ '"' ∉ chars := by
  induction chars with
  | nil => simp [escapedChars]
  | cons first rest ih =>
      rw [escapedChars_cons]
      split
      · next special =>
          have longer := length_le_length_escapedChars rest
          constructor
          · intro same
            have lengths := congrArg List.length same
            simp only [List.length_append, List.length_cons, List.length_nil] at lengths
            omega
          · rintro ⟨noBackslash, noQuote⟩
            rcases special with rfl | rfl
            · exact absurd List.mem_cons_self noBackslash
            · exact absurd List.mem_cons_self noQuote
      · next plain =>
          obtain ⟨notBackslash, notQuote⟩ := not_or.1 plain
          simp [ih, Ne.symm notBackslash, Ne.symm notQuote]

theorem escaped_eq_self_iff {text : String} :
    escaped text = text ↔ '\\' ∉ text.toList ∧ '"' ∉ text.toList := by
  rw [← escapedChars_eq_self_iff, escaped, ← String.toList_inj, String.toList_ofList]

theorem spellsString_quotedLiteral (text : String) :
    SpellsString Escaping (quotedLiteral text).toList (escaped text) := by
  refine ⟨'"', .inl rfl, ?_, ?_⟩
  · rw [escaped, String.toList_ofList]
    exact escaping_escapedChars text.toList
  · simp [quotedLiteral]

theorem getLast?_quotedLiteral (text : String) : (quotedLiteral text).toList.getLast? = some '"' := by
  rw [quotedLiteral, String.toList_append]
  exact List.getLast?_concat

/-- A field compared with the literal for a text. -/
def literalComparison (field : Field) (text : String) : List Char :=
  field.root.beginning.toList ++ field.path.toList ++
    ([' '] ++ ("==".toList ++ ([' '] ++ (quotedLiteral text).toList)))

theorem spells_literalComparison {field : Field} (isPath : Text.IsFieldPath field.path)
    (text : String) : Spells Escaping .disjunction (literalComparison field text)
      (equal field (.string (escaped text))) := by
  have blank : Text.AreBlanks [' '] := Text.areBlanks_cons.2 ⟨rfl, Text.areBlanks_nil⟩
  have named : SpellsField (field.root.beginning.toList ++ field.path.toList) field := ⟨isPath, rfl⟩
  have valued : SpellsValue Escaping (quotedLiteral text).toList (.string (escaped text)) :=
    .string (spellsString_quotedLiteral text)
  apply Spells.ofConjunction
  apply Spells.ofUnary
  apply Spells.ofPrimary
  exact .equal named valued (.next _ blank (.next _ blank (.last _)))

theorem isTrimmed_literalComparison {field : Field} (isPath : Text.IsFieldPath field.path)
    (text : String) : Text.IsTrimmed (literalComparison field text) := by
  obtain ⟨first, others, front, opens⟩ := (spells_literalComparison isPath text).exists_first
  constructor
  · rw [front]
    intro c isFirst
    exact Option.some.inj isFirst ▸ Level.isBlank_of_mem_openings opens
  · intro c isLast
    rw [literalComparison] at isLast
    simp only [List.getLast?_append, getLast?_quotedLiteral, Option.some_or] at isLast
    cases isLast
    rfl

theorem parse_literalComparison {field : Field} (isPath : Text.IsFieldPath field.path)
    (text : String) :
    parse (String.ofList (literalComparison field text)) =
      .ok (equal field (.string (escaped text))) := by
  apply parse_of_spells
  rw [String.toList_ofList, (isTrimmed_literalComparison isPath text).trimChars_eq]
  exact spells_literalComparison isPath text

/-- The field `x` of the context. -/
def fieldX : Field :=
  ⟨.context, "x"⟩

theorem parse_quotedLiteral (text : String) :
    parse ("ctx.x == " ++ quotedLiteral text) = .ok (equal fieldX (.string (escaped text))) := by
  have written : "ctx.x == " ++ quotedLiteral text =
      String.ofList (literalComparison fieldX text) := by
    rw [← String.toList_inj, String.toList_ofList, String.toList_append]
    rfl
  rw [written]
  exact parse_literalComparison (by decide) text

/-- The literal for a text is read to its end and denotes the text with its backslashes.  This is
the text itself only if nothing in it had to be escaped. -/
theorem literal_denotes_escaped_text (text : String) :
    parse ("ctx.x == " ++ quotedLiteral text) = .ok (equal fieldX (.string (escaped text))) ∧
    (∀ context around, (equal fieldX (.string (escaped text))).holds context around = true ↔
      fieldX.resolve context around = .string (escaped text)) ∧
    (escaped text = text ↔ '\\' ∉ text.toList ∧ '"' ∉ text.toList) := by
  refine ⟨parse_quotedLiteral text, ?_, escaped_eq_self_iff⟩
  intro context around
  exact Json.Value.guardEqual_string_iff

/-- The literal for `a"b` denotes another text, and so the guard fails on the text itself. -/
theorem escaped_quote_keeps_backslash :
    ¬ (∀ text, parse ("ctx.x == " ++ quotedLiteral text) = .ok (equal fieldX (.string text))) ∧
      ∃ guard, parse ("ctx.x == " ++ quotedLiteral "a\"b") = .ok guard ∧
        guard.holds (.object [("x", .string "a\"b")]) .bare = false := by
  constructor
  · intro unescaped
    have denoted := (parse_quotedLiteral "a\"b").symm.trans (unescaped "a\"b")
    have sameValue := (equal.inj (Except.ok.inj denoted)).2
    have noQuote := (escaped_eq_self_iff.1 (Json.Value.string.inj sameValue)).2
    exact noQuote (by decide)
  · exact ⟨_, parse_quotedLiteral "a\"b", by decide⟩

end Guard

end Statechart
