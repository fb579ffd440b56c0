import Statechart.Proofs.Guard.Completeness
import Statechart.Proofs.Guard.Mirroring

/-!
# A scan does what reading does

Each scan mirrors the reader of the same part, from strings and numbers up to
guards in parentheses and chains of them, where the steps allowed to a scan
suffice because every step takes a character.  So the scan of a text comes to
what parsing it comes to.
-/

namespace Statechart

namespace Guard

variable {Other : Type} {text rest left before : List Char}

/-! ## Strings and numbers -/

theorem mirrors_skipChar {c : Char} :
    Mirrors text (Scan.skipChar text) (c :: rest) (.ok ((), rest)) :=
  mirrors_peek.ok_bind (mirrors_advance [c] rest (byteCount_singleton c))

/-- What a scan inside quotes comes to if so many characters of the content are done. -/
def quotedOutcome (done : List Char) :
    Option (List Char × List Char) → Except Flaw (String × List Char)
  | some (content, left) => .ok (String.ofList (done ++ content), left)
  | none => .error .unterminatedString

theorem quotedOutcome_append (done more : List Char) (found : Option (List Char × List Char)) :
    quotedOutcome (done ++ more) found =
      quotedOutcome done (found.map (fun found => (more ++ found.1, found.2))) := by
  cases found with
  | none => rfl
  | some found => simp [quotedOutcome]

theorem mirrors_quoted {quote : Char} {done : List Char} (split : text = before ++ (done ++ rest))
    (isQuote : quote = '"' ∨ quote = '\'') {steps : Nat} (enough : rest.length < steps) :
    Mirrors text (Scan.quoted text quote (byteCount before) steps) rest
      (quotedOutcome done (readQuoted quote rest)) := by
  have notBackslash : quote ≠ '\\' := by
    rintro rfl
    simp at isQuote
  induction steps generalizing rest done with
  | zero => omega
  | succ steps ih =>
      refine mirrors_peek.ok_bind ?_
      cases rest with
      | nil => exact mirrors_fail .unterminatedString
      | cons c others =>
          have further : ∀ more later, c :: others = more ++ later → later.length < steps →
              Mirrors text (Scan.quoted text quote (byteCount before) steps) later
                (quotedOutcome done
                  ((readQuoted quote later).map (fun found => (more ++ found.1, found.2)))) := by
            intro more later isRest shorter
            rw [← quotedOutcome_append]
            exact ih (by rw [split, isRest, List.append_assoc]) shorter
          rw [List.length_cons] at enough
          dsimp only [List.head?_cons]
          by_cases closes : c = quote
          · -- The closing quote is a single byte.
            subst closes
            rw [if_pos rfl, readQuoted_cons notBackslash, if_pos rfl, quotedOutcome, List.append_nil]
            have closed : Mirrors text (Scan.advance 1) (c :: others) (.ok ((), others)) :=
              mirrors_advance [c] others (by rcases isQuote with rfl | rfl <;> rfl)
            exact (mirrors_taken split).ok_bind (closed.ok_bind (mirrors_pure _))
          rw [if_neg closes]
          by_cases escapes : c = '\\'
          · subst escapes
            rw [if_pos rfl]
            have passed : Mirrors text (Scan.advance 1) ('\\' :: others) (.ok ((), others)) :=
              mirrors_advance ['\\'] others rfl
            refine passed.ok_bind ?_
            cases others with
            | nil =>
                have nothing : Mirrors text (Scan.skipChar text) [] (.ok ((), [])) :=
                  mirrors_peek.ok_bind (mirrors_pure ())
                exact nothing.ok_bind (further ['\\'] [] rfl (by omega))
            | cons escaped later =>
                rw [List.length_cons] at enough
                exact mirrors_skipChar.ok_bind (further ['\\', escaped] later rfl (by omega))
          · rw [if_neg escapes, readQuoted_cons escapes, if_neg closes]
            have passed : Mirrors text (Scan.advance c.utf8Size) (c :: others) (.ok ((), others)) :=
              mirrors_advance [c] others (byteCount_singleton c)
            exact passed.ok_bind (further [c] others rfl (by omega))

theorem mirrors_string : Mirrors text (Scan.string text) rest (readString rest) := by
  refine mirrors_peek.ok_bind ?_
  cases rest with
  | nil => exact mirrors_fail .stringExpected
  | cons quote others =>
      dsimp only [List.head?_cons]
      rw [readString]
      by_cases isQuote : quote = '"' ∨ quote = '\''
      · rw [if_pos isQuote, if_pos isQuote]
        have opened : Mirrors text (Scan.advance 1) (quote :: others) (.ok ((), others)) :=
          mirrors_advance [quote] others (by rcases isQuote with rfl | rfl <;> rfl)
        refine opened.ok_bind (mirrors_get_bind fun before split => ?_)
        have scanned : Mirrors text (Scan.quoted text quote (byteCount before) (Scan.steps text))
            others (quotedOutcome [] (readQuoted quote others)) :=
          mirrors_of_length_le fun shorter =>
            mirrors_quoted split isQuote (Nat.lt_succ_of_le shorter)
        cases found : readQuoted quote others with
        | none => exact found ▸ scanned
        | some content => exact found ▸ scanned
      · rw [if_neg isQuote, if_neg isQuote]
        exact mirrors_fail .stringExpected

theorem drop_length_takeWhile (test : Char → Bool) (input : List Char) :
    input.drop (input.takeWhile test).length = input.dropWhile test := by
  apply List.append_cancel_left
  rw [takeWhile_append_drop, List.takeWhile_append_dropWhile]

theorem mirrors_skipNumeral :
    Mirrors text (Scan.skipNumeral text) rest (.ok ((), (Numeral.take rest).2)) := by
  have signed : ∀ {minus : Bool} {after : List Char}, Numeral.takeSign rest = (minus, after) →
      Mirrors text (Scan.skipSign text) rest (.ok ((), after)) := by
    intro minus after isSigned
    obtain ⟨front, noSign⟩ := Numeral.eq_of_takeSign isSigned
    refine mirrors_peek.ok_bind ?_
    cases minus with
    | true => exact front ▸ mirrors_advance ['-'] after rfl
    | false =>
        obtain rfl : rest = after := front
        rw [if_neg (noSign rfl)]
        exact mirrors_pure ()
  fun_cases Numeral.take rest
  case case1 minus after isSigned whole following point fraction =>
    refine (signed isSigned).ok_bind (mirrors_skipDigits.ok_bind ?_)
    rw [← drop_length_takeWhile, point]
    have passed : Mirrors text (Scan.advance 1) ('.' :: following) (.ok ((), following)) :=
      mirrors_advance ['.'] following rfl
    refine mirrors_peek.ok_bind (passed.ok_bind ?_)
    rw [drop_length_takeWhile]
    exact mirrors_skipDigits
  case case2 minus after isSigned whole noPoint =>
    refine (signed isSigned).ok_bind (mirrors_skipDigits.ok_bind (mirrors_peek.ok_bind ?_))
    rw [← drop_length_takeWhile, if_neg]
    · exact mirrors_pure ()
    · intro isPoint
      obtain ⟨following, point⟩ := List.head?_eq_some_iff.1 isPoint
      exact noPoint following point

/-- The characters of a numeral are the numeral and nothing else, be there digits or not. -/
theorem Numeral.take_chars {numeral : Numeral} (digits : ∀ c ∈ numeral.digits, c.isDigit = true) :
    Numeral.take numeral.chars = (numeral, []) := by
  have noSign : (numeral.unsigned ++ []).head? ≠ some '-' := by
    obtain ⟨isMinus, whole, fraction⟩ := numeral
    cases whole with
    | cons first others =>
        intro isSign
        cases isSign
        exact absurd (digits '-' (by simp [Numeral.digits])) (by decide)
    | nil =>
        cases fraction with
        | none => simp [Numeral.unsigned]
        | some fraction => simp [Numeral.unsigned]
  have ends : EndsName [] := by
    intro c isFirst
    cases isFirst
  have taken := Numeral.take_append digits ends noSign
  rwa [List.append_nil] at taken

theorem mirrors_number : Mirrors text (Scan.number text) rest (readNumber rest) := by
  refine mirrors_skipBlanks.ok_bind (mirrors_get_bind fun before split => ?_)
  obtain ⟨digits, front⟩ := Numeral.take_spec (Text.skipBlanks rest)
  refine mirrors_skipNumeral.ok_bind ((mirrors_taken (front ▸ split)).ok_bind ?_)
  simp only [readNumber, Scan.number?, Numeral.take_chars digits]
  cases noDigit : (Numeral.take (Text.skipBlanks rest)).1.digits.isEmpty with
  | true =>
      rw [if_neg (by simp), if_pos rfl]
      exact mirrors_fail _
  | false =>
      rw [if_pos (by simp), if_neg Bool.false_ne_true]
      exact mirrors_pure _

theorem mirrors_value : Mirrors text (Scan.value text) rest (readValue rest) := by
  refine mirrors_skipBlanks.ok_bind ?_
  have quoted : Mirrors text (do return Json.Value.string (← Scan.string text))
      (Text.skipBlanks rest) ((readString (Text.skipBlanks rest)).map
        (fun found => (.string found.1, found.2))) := mirrors_string.map
  simp only [readValue]
  split
  · next found =>
      exact (mirrors_startsWithKeyword "true").of_some found (eq_append_of_skipKeyword? found) rfl
        (mirrors_pure _)
  · next missed =>
    refine (mirrors_startsWithKeyword "true").of_none missed ?_
    split
    · next found =>
        exact (mirrors_startsWithKeyword "false").of_some found (eq_append_of_skipKeyword? found) rfl
          (mirrors_pure _)
    · next missed =>
      refine (mirrors_startsWithKeyword "false").of_none missed ?_
      split
      · next found =>
          exact (mirrors_startsWithKeyword "null").of_some found (eq_append_of_skipKeyword? found) rfl
            (mirrors_pure _)
      · next missed =>
        refine (mirrors_startsWithKeyword "null").of_none missed (mirrors_peek.ok_bind ?_)
        split
        · next isQuote =>
          rcases isQuote with isQuote | isQuote
          all_goals
            obtain ⟨others, front⟩ := List.head?_eq_some_iff.1 isQuote
            rw [front] at quoted ⊢
            exact quoted
        · next noQuote =>
          split
          · next front => exact absurd (.inl (by rw [front]; rfl)) noQuote
          · next front => exact absurd (.inr (by rw [front]; rfl)) noQuote
          · refine mirrors_number.bind fun x left _ => ?_
            by_cases infinite : x.isInf = true
            · rw [if_pos infinite, if_pos infinite]
              exact mirrors_fail _
            · rw [if_neg infinite, if_neg infinite]
              exact mirrors_pure _

/-! ## Primaries -/

theorem mirrors_path (root : FieldRoot) :
    Mirrors text (Scan.path text root) rest
      (if (rest.takeWhile Text.isPathChar).isEmpty then .error .emptyField
        else .ok (⟨root, String.ofList (rest.takeWhile Text.isPathChar)⟩,
          rest.drop (rest.takeWhile Text.isPathChar).length)) := by
  refine mirrors_get_bind fun before split => ?_
  have skipped : Mirrors text
      (Scan.skipWhile text Text.isPathChar Char.utf8Size (Scan.steps text)) rest
      (.ok ((), rest.dropWhile Text.isPathChar)) :=
    mirrors_of_length_le fun shorter =>
      mirrors_skipWhile (fun c _ => byteCount_singleton c) (Nat.lt_succ_of_le shorter)
  rw [← drop_length_takeWhile] at skipped
  rw [← takeWhile_append_drop Text.isPathChar rest] at split
  refine skipped.ok_bind ((mirrors_taken split).ok_bind ?_)
  by_cases isEmpty : (rest.takeWhile Text.isPathChar).isEmpty = true
  · rw [if_pos isEmpty, if_pos isEmpty]
    exact mirrors_fail _
  · rw [if_neg isEmpty, if_neg isEmpty]
    exact mirrors_pure _

theorem mirrors_field : Mirrors text (Scan.field text) rest (readField rest) := by
  simp only [readField]
  split
  · next found =>
      have isContext : Mirrors text (Scan.root text) rest (.ok (.context, _)) :=
        (mirrors_startsWith "ctx.").of_some found (eq_append_of_skip? found) rfl (mirrors_pure _)
      exact isContext.ok_bind (mirrors_path .context)
  · next notContext =>
      split
      · next found =>
          have isEvent : Mirrors text (Scan.root text) rest (.ok (.event, _)) :=
            (mirrors_startsWith "ctx.").of_none notContext
              ((mirrors_startsWith "_event.").of_some found (eq_append_of_skip? found) rfl
                (mirrors_pure _))
          exact isEvent.ok_bind (mirrors_path .event)
      · next notEvent =>
          have noRoot : Mirrors text (Scan.root text) rest (.error .rootExpected) :=
            (mirrors_startsWith "ctx.").of_none notContext
              ((mirrors_startsWith "_event.").of_none notEvent (mirrors_fail _))
          exact noRoot.error_bind

theorem skip?_eq_none {word : String} (differs : ∀ after, rest = word.toList ++ after → False) :
    skip? word rest = none := by
  cases found : skip? word rest with
  | none => rfl
  | some after => exact (differs after (eq_append_of_skip? found)).elim

theorem head?_ne {marker : Char} (differs : ∀ after, rest = marker :: after → False) :
    rest.head? ≠ some marker := by
  intro isFirst
  obtain ⟨after, front⟩ := List.head?_eq_some_iff.1 isFirst
  exact differs after front

theorem mirrors_sign {later : Except Flaw (Other × List Char)} {onward otherwise : Scan Other}
    {bytes : Nat} (sign : String) (front : rest = sign.toList ++ left)
    (areBytes : byteCount sign.toList = bytes) (others : Mirrors text onward left later) :
    Mirrors text (Scan.startsWith text sign >>= fun begins =>
      if begins = true then Scan.advance bytes >>= fun _ => onward else otherwise) rest later :=
  (mirrors_startsWith sign).of_some (by rw [front, skip?_append]) front areBytes others

theorem mirrors_noSign {later : Except Flaw (Other × List Char)} {onward otherwise : Scan Other}
    (sign : String) (differs : ∀ after, rest = sign.toList ++ after → False)
    (others : Mirrors text otherwise rest later) :
    Mirrors text (Scan.startsWith text sign >>= fun begins =>
      if begins = true then onward else otherwise) rest later :=
  (mirrors_startsWith sign).of_none (skip?_eq_none differs) others

theorem mirrors_comparison :
    Mirrors text (Scan.comparison text) rest (readComparison (Text.skipBlanks rest)) := by
  refine mirrors_skipBlanks.ok_bind (mirrors_field.bind fun field left _ => ?_)
  refine mirrors_skipBlanks.ok_bind ?_
  dsimp only
  generalize Text.skipBlanks left = input
  split
  · exact mirrors_sign "==" rfl rfl mirrors_value.map
  · refine mirrors_noSign "==" (fun _ same => nomatch same) ?_
    exact mirrors_sign "!=" rfl rfl mirrors_value.map
  · refine mirrors_noSign "==" (fun _ same => nomatch same) ?_
    refine mirrors_noSign "!=" (fun _ same => nomatch same) ?_
    exact mirrors_sign ">=" rfl rfl mirrors_number.map
  · refine mirrors_noSign "==" (fun _ same => nomatch same) ?_
    refine mirrors_noSign "!=" (fun _ same => nomatch same) ?_
    refine mirrors_noSign ">=" (fun _ same => nomatch same) ?_
    exact mirrors_sign "<=" rfl rfl mirrors_number.map
  · next right notEqual =>
      refine mirrors_noSign "==" (fun _ same => nomatch same) ?_
      refine mirrors_noSign "!=" (fun _ same => nomatch same) ?_
      refine mirrors_noSign ">=" (fun after same => notEqual after (List.cons.inj same).2) ?_
      refine mirrors_noSign "<=" (fun _ same => nomatch same) ?_
      have passed : Mirrors text (Scan.advance 1) ('>' :: right) (.ok ((), right)) :=
        mirrors_advance ['>'] right rfl
      exact mirrors_peek.ok_bind (passed.ok_bind mirrors_number.map)
  · next right notEqual =>
      refine mirrors_noSign "==" (fun _ same => nomatch same) ?_
      refine mirrors_noSign "!=" (fun _ same => nomatch same) ?_
      refine mirrors_noSign ">=" (fun _ same => nomatch same) ?_
      refine mirrors_noSign "<=" (fun after same => notEqual after (List.cons.inj same).2) ?_
      have passed : Mirrors text (Scan.advance 1) ('<' :: right) (.ok ((), right)) :=
        mirrors_advance ['<'] right rfl
      exact mirrors_peek.ok_bind (mirrors_peek.ok_bind (passed.ok_bind mirrors_number.map))
  · next notEqual notUnequal notAtLeast notAtMost notAbove notBelow =>
      refine mirrors_noSign "==" notEqual (mirrors_noSign "!=" notUnequal ?_)
      refine mirrors_noSign ">=" notAtLeast (mirrors_noSign "<=" notAtMost ?_)
      refine mirrors_peek.ok_bind ?_
      rw [if_neg (head?_ne notAbove)]
      refine mirrors_peek.ok_bind ?_
      rw [if_neg (head?_ne notBelow)]
      exact mirrors_pure _

theorem mirrors_closing (flaw : Flaw) :
    Mirrors text (Scan.closing text flaw) (')' :: left) (.ok ((), left)) :=
  mirrors_peek.ok_bind (mirrors_advance [')'] left rfl)

theorem mirrors_closing_error (flaw : Flaw) (differs : ∀ after, rest = ')' :: after → False) :
    Mirrors text (Scan.closing text flaw) rest (.error flaw) := by
  refine mirrors_peek.ok_bind ?_
  rw [if_neg (head?_ne differs)]
  exact mirrors_fail flaw

theorem mirrors_stateId :
    Mirrors text (Scan.stateId text) ("In(".toList ++ rest) (readActive rest) := by
  refine (mirrors_advance "In(".toList rest rfl).ok_bind (mirrors_skipBlanks.ok_bind ?_)
  refine mirrors_string.bind fun state left _ => mirrors_skipBlanks.ok_bind ?_
  dsimp only
  split
  · next closed =>
      rw [closed]
      exact (mirrors_closing _).ok_bind (mirrors_pure _)
  · next notClosed => exact (mirrors_closing_error _ notClosed).error_bind

section

variable {nested : Reader Guard} {scanNested : Scan Guard}

/-- The scan of what is enclosed mirrors its reader on whatever is shorter. -/
def MirrorsBelow (text : List Char) (scanNested : Scan Guard) (nested : Reader Guard)
    (limit : Nat) : Prop :=
  ∀ ⦃input : List Char⦄, input.length < limit → Mirrors text scanNested input (nested input)

theorem mirrors_primary (below : MirrorsBelow text scanNested nested rest.length) :
    Mirrors text (Scan.primary text scanNested) rest (readPrimary nested rest) := by
  refine mirrors_skipBlanks.ok_bind (mirrors_peek.ok_bind ?_)
  have shorter := Text.length_skipBlanks_le rest
  simp only [readPrimary]
  by_cases opens : (Text.skipBlanks rest).head? = some '('
  · obtain ⟨others, front⟩ := List.head?_eq_some_iff.1 opens
    rw [if_pos opens]
    rw [front] at shorter ⊢
    have opened : Mirrors text (Scan.advance 1) ('(' :: others) (.ok ((), others)) :=
      mirrors_advance ['('] others rfl
    refine opened.ok_bind ((below shorter).bind fun inner left _ => ?_)
    refine mirrors_skipBlanks.ok_bind ?_
    dsimp only
    split
    · next closed =>
        rw [closed]
        exact (mirrors_closing _).ok_bind (mirrors_pure _)
    · next notClosed => exact (mirrors_closing_error _ notClosed).error_bind
  rw [if_neg opens]
  split
  · next front => exact absurd (by rw [front]; rfl) opens
  split
  · next found =>
      refine (mirrors_startsWith "In(").of_found found ?_
      rw [eq_append_of_skip? found]
      exact mirrors_stateId
  next notState =>
  refine (mirrors_startsWith "In(").of_none notState ?_
  split
  · next found =>
      exact (mirrors_startsWithKeyword "true").of_some found (eq_append_of_skipKeyword? found) rfl
        (mirrors_pure _)
  next notTrue =>
  refine (mirrors_startsWithKeyword "true").of_none notTrue ?_
  split
  · next found =>
      exact (mirrors_startsWithKeyword "false").of_some found (eq_append_of_skipKeyword? found) rfl
        (mirrors_pure _)
  next notFalse =>
  refine (mirrors_startsWithKeyword "false").of_none notFalse ?_
  have compared : Mirrors text (Scan.comparison text) (Text.skipBlanks rest)
      (readComparison (Text.skipBlanks (Text.skipBlanks rest))) := mirrors_comparison
  rwa [Text.skipBlanks_skipBlanks] at compared

theorem isSome_skip?_unequal : (skip? "!=" ('!' :: rest)).isSome = true ↔ rest.head? = some '=' := by
  cases rest with
  | nil => decide
  | cons next others =>
      by_cases isEqual : next = '='
      · subst isEqual
        exact iff_of_true rfl rfl
      · simp [skip?, isEqual, Ne.symm isEqual]

theorem mirrors_unary {steps : Nat} (below : MirrorsBelow text scanNested nested rest.length)
    (enough : rest.length < steps) :
    Mirrors text (Scan.unary text scanNested steps) rest (readUnary (readPrimary nested) rest) := by
  induction steps generalizing rest with
  | zero => omega
  | succ steps ih =>
      have shorter := Text.length_skipBlanks_le rest
      have primary : Mirrors text (Scan.primary text scanNested) (Text.skipBlanks rest)
          (readPrimary nested (Text.skipBlanks rest)) :=
        mirrors_primary fun input within => below (Nat.lt_of_lt_of_le within shorter)
      rw [← readUnary_skipBlanks]
      refine mirrors_skipBlanks.ok_bind (mirrors_peek.ok_bind ((mirrors_startsWith "!=").ok_bind ?_))
      cases front : Text.skipBlanks rest with
      | nil =>
          rw [front] at primary
          rw [readUnary_of_none rfl, if_neg (by simp)]
          exact primary
      | cons c others =>
          rw [front] at shorter primary
          by_cases isSign : c = '!' ∧ others.head? ≠ some '='
          · obtain ⟨rfl, notEqual⟩ := isSign
            rw [if_pos ⟨rfl, fun isUnequal => notEqual (isSome_skip?_unequal.1 isUnequal)⟩,
              readUnary_sign _ notEqual, ← readUnary_skipBlanks]
            have passed : Mirrors text (Scan.advance 1) ('!' :: others) (.ok ((), others)) :=
              mirrors_advance ['!'] others rfl
            have fewer := Text.length_skipBlanks_le others
            rw [List.length_cons] at shorter
            refine passed.ok_bind (mirrors_skipBlanks.ok_bind (Mirrors.map (ih ?_ ?_)))
            · exact fun input within => below (by omega)
            · omega
          · rw [readUnary_plain _ (Text.isBlank_of_skipBlanks front) isSign, if_neg]
            · exact primary
            · rintro ⟨isFirst, notUnequal⟩
              cases isFirst
              exact isSign ⟨rfl, fun isEqual => notUnequal (isSome_skip?_unequal.2 isEqual)⟩

theorem mirrorsBelow_unary {limit : Nat} (below : MirrorsBelow text scanNested nested limit) :
    MirrorsBelow text (Scan.unary text scanNested (Scan.steps text))
      (readUnary (readPrimary nested)) (limit + 1) :=
  fun _ within => mirrors_of_length_le fun shorter =>
    mirrors_unary (fun _ fewer => below (by omega)) (Nat.lt_succ_of_le shorter)

end

/-! ## Chains and nesting -/

section

variable {mark : Char} {sign : String} {join : Guard → Guard → Guard} {operand : Reader Guard}
  {scanOperand : Scan Guard}

theorem mirrors_operands (isSign : sign.toList = [mark, mark])
    (areBytes : byteCount sign.toList = 2)
    (below : MirrorsBelow text scanOperand operand rest.length) {steps limit : Nat}
    (enough : rest.length < steps) (within : rest.length ≤ limit) (left : Guard) :
    Mirrors text (Scan.operands text sign join scanOperand steps left) rest
      (readOperands mark join operand limit left rest) := by
  induction steps generalizing rest limit left with
  | zero => omega
  | succ steps ih =>
      refine mirrors_skipBlanks.ok_bind ?_
      have shorter := Text.length_skipBlanks_le rest
      cases limit with
      | zero =>
          obtain rfl : rest = [] := List.eq_nil_of_length_eq_zero (by omega)
          refine mirrors_noSign sign (fun after same => ?_) (mirrors_pure left)
          rw [isSign] at same
          cases same
      | succ limit =>
          rw [readOperands]
          split
          · next first second after front =>
              by_cases isMark : first = mark ∧ second = mark
              · have signed : Text.skipBlanks rest = sign.toList ++ after := by
                  rw [front, isSign, isMark.1, isMark.2]
                  rfl
                rw [if_pos isMark]
                have fewer := Text.length_skipBlanks_le after
                simp only [front, List.length_cons] at shorter
                refine mirrors_sign sign signed areBytes (mirrors_skipBlanks.ok_bind ?_)
                refine (below (by omega)).bind fun right remaining lessRemains => ?_
                exact ih (fun _ less => below (by omega)) (by omega) (by omega) _
              · rw [if_neg isMark, ← front]
                refine mirrors_noSign sign (fun after same => isMark ?_) (mirrors_pure left)
                rw [isSign, front] at same
                cases same
                exact ⟨rfl, rfl⟩
          · next tooFew =>
              refine mirrors_noSign sign (fun after same => ?_) (mirrors_pure left)
              rw [isSign] at same
              exact tooFew mark mark after same

theorem mirrorsBelow_chain {limit : Nat} (isSign : sign.toList = [mark, mark])
    (areBytes : byteCount sign.toList = 2)
    (below : MirrorsBelow text scanOperand operand limit) :
    MirrorsBelow text (Scan.chain text sign join scanOperand) (readChain mark join operand)
      limit := by
  intro input within
  refine (below within).bind fun first left fewer => mirrors_of_length_le fun shorter => ?_
  exact mirrors_operands isSign areBytes (fun _ less => below (by omega))
    (Nat.lt_succ_of_le shorter) (Nat.le_refl _) first

end

/-- One more level of parentheses takes one more character. -/
theorem mirrorsBelow_within_succ {depth readable limit : Nat}
    (below : MirrorsBelow text (Scan.within text depth) (readWithin readable) limit) :
    MirrorsBelow text (Scan.within text (depth + 1)) (readWithin (readable + 1)) (limit + 1) :=
  mirrorsBelow_chain rfl rfl (mirrorsBelow_chain rfl rfl (mirrorsBelow_unary below))

theorem mirrorsBelow_within (depth : Nat) :
    MirrorsBelow text (Scan.within text (depth + 1)) (readWithin depth) (depth + 1) := by
  induction depth with
  | zero =>
      intro input within
      obtain rfl : input = [] := List.eq_nil_of_length_eq_zero (by omega)
      have unread : readWithin 0 [] = readWithin 1 [] := rfl
      have none : MirrorsBelow text (Scan.within text 0) (readWithin 0) 0 :=
        fun _ less => absurd less (Nat.not_lt_zero _)
      rw [unread]
      exact mirrorsBelow_within_succ none within
  | succ depth ih => exact mirrorsBelow_within_succ ih

/-- Reads a guard with nothing but blanks after it. -/
def readWhole : Reader Guard := fun input => do
  let (guard, rest) ← readWithin input.length input
  match Text.skipBlanks rest with
  | [] => .ok (guard, [])
  | rest => .error (.trailing (byteCount input - byteCount rest))

theorem parse_eq (text : String) :
    parse text =
      if (Text.trimChars text.toList).isEmpty then .error .empty
      else (readWhole (Text.trimChars text.toList)).map Prod.fst := by
  simp only [parse, readWhole]
  split
  · rfl
  cases readWithin (Text.trimChars text.toList).length (Text.trimChars text.toList) with
  | error flaw => rfl
  | ok found =>
      simp only [bind, Except.bind]
      cases Text.skipBlanks found.2 with
      | nil => rfl
      | cons next others => rfl

/-- At the end of the text the offset is the number of its bytes, and before the end it is less. -/
theorem mirrors_guard : Mirrors text (Scan.guard text) text (readWhole text) := by
  have read : Mirrors text (Scan.within text (Scan.steps text)) text
      (readWithin text.length text) :=
    mirrorsBelow_within text.length (Nat.lt_succ_self text.length)
  refine read.bind fun guard left _ => mirrors_skipBlanks.ok_bind ?_
  refine mirrors_get_bind fun before split => ?_
  have counted : byteCount text = byteCount before + byteCount (Text.skipBlanks left) := by
    rw [← byteCount_append, ← split]
  cases front : Text.skipBlanks left with
  | nil =>
      rw [front, byteCount_nil] at counted
      rw [if_neg (by omega)]
      simp only [front]
      exact mirrors_pure guard
  | cons next others =>
      have positive := next.utf8Size_pos
      have reached : byteCount before = byteCount text - byteCount (next :: others) := by
        rw [front] at counted
        omega
      rw [front, byteCount_cons] at counted
      rw [if_pos (by omega), reached]
      simp only [front]
      exact mirrors_fail _

/-- A scan yields what parsing yields.  It never slices off a boundary and always ends. -/
theorem scan_eq (text : String) : Guard.scan text = (parse text).mapError .flaw := by
  rw [parse_eq]
  simp only [Guard.scan]
  split
  · rfl
  · have scanned := mirrors_guard (List.nil_append (Text.trimChars text.toList)).symm
    show Prod.fst <$> Scan.guard (Text.trimChars text.toList) (byteCount []) = _
    cases outcome : readWhole (Text.trimChars text.toList) with
    | error flaw =>
        simp only [outcome] at scanned
        rw [scanned]
        rfl
    | ok found =>
        simp only [outcome] at scanned
        obtain ⟨chars, -, isOk⟩ := scanned
        rw [isOk]
        rfl

end Guard

end Statechart
