import Statechart.Proofs.Guard.Completeness
import Statechart.Proofs.Guard.Scanning

/-!
# Parsing follows the grammar

A text without backslashes parses to a guard exactly if it spells the guard, and
every other text has a flaw.  The scan of the text by byte offsets comes to the
same outcome and never slices it inside of a character.
-/

namespace Statechart

namespace Guard

variable {text : String}

/-- What the scan of a text comes to is a guard or a flaw of the text. -/
theorem exists_flaw_of_scan {halt : Halt} (halted : Guard.scan text = .error halt) :
    ∃ flaw, halt = .flaw flaw := by
  rw [scan_eq] at halted
  cases outcome : parse text with
  | ok guard =>
      rw [outcome] at halted
      cases halted
  | error flaw =>
      rw [outcome] at halted
      cases halted
      exact ⟨flaw, rfl⟩

theorem exists_flaw (noGuard : ∀ guard, parse text ≠ .ok guard) :
    ∃ flaw, parse text = .error flaw := by
  cases outcome : parse text with
  | ok guard => exact absurd outcome (noGuard guard)
  | error flaw => exact ⟨flaw, rfl⟩

/-- A text without backslashes is parsed as the guard it spells, blanks around it aside, and has a
flaw if it spells none.  The scan by byte offsets comes to the same. -/
theorem parse_follows_grammar (noBackslash : '\\' ∉ text.toList) :
    (∀ guard, parse text = .ok guard ↔
      Spells Plain .disjunction (Text.trimChars text.toList) guard) ∧
    ((¬ ∃ guard, Spells Plain .disjunction (Text.trimChars text.toList) guard) →
      ∃ flaw, parse text = .error flaw) ∧
    Guard.scan text = (parse text).mapError .flaw ∧
    Guard.scan text ≠ .error .betweenBoundaries := by
  have noneTrimmed : '\\' ∉ Text.trimChars text.toList :=
    fun member => noBackslash (Text.trimChars_subset _ member)
  have spells : ∀ guard, parse text = .ok guard ↔
      Spells Plain .disjunction (Text.trimChars text.toList) guard :=
    fun guard => parse_eq_ok_iff.trans (spells_escaping_iff noneTrimmed)
  refine ⟨spells, ?_, scan_eq text, ?_⟩
  · intro none
    exact exists_flaw (fun guard parsed => none ⟨guard, (spells guard).1 parsed⟩)
  · intro betweenBoundaries
    obtain ⟨flaw, isFlaw⟩ := exists_flaw_of_scan betweenBoundaries
    cases isFlaw

/-- Blanks are at will, and a conjunction binds tighter than a disjunction. -/
theorem loose_guard_is_spelled :
    '\\' ∉ " !ctx.a && In( \"é\" )||_event.n>= -1.5".toList ∧
      Spells Plain .disjunction (Text.trimChars " !ctx.a && In( \"é\" )||_event.n>= -1.5".toList)
        (either (both (negation (truthy ⟨.context, "a"⟩)) (active "é"))
          (compare .atLeast ⟨.event, "n"⟩ (Numeral.value ⟨true, ['1'], some ['5']⟩))) := by
  have noBackslash : '\\' ∉ " !ctx.a && In( \"é\" )||_event.n>= -1.5".toList := by decide
  exact ⟨noBackslash, ((parse_follows_grammar noBackslash).1 _).1 rfl⟩

end Guard

end Statechart
