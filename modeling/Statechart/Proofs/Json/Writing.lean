import Mathlib.Data.List.Nodup
import Statechart.Json.Reader
import Statechart.Json.Writer

/-!
# Compact texts

The compact text of a value is cut into the tokens of the value again.  Every
piece that is written is read as its token whatever comes after it.  That does
not hold of the digits of a number, so values with numbers are left out.
-/

namespace Statechart

namespace Json

/-! ## Characters -/

/-- A writer that appends the given characters. -/
def Appends (write : String → String) (chars : List Char) : Prop :=
  ∀ out, (write out).toList = out.toList ++ chars

namespace Appends

theorem comp {write next : String → String} {chars more : List Char}
    (appends : Appends write chars) (appendsMore : Appends next more) :
    Appends (fun out => next (write out)) (chars ++ more) := by
  intro out
  rw [appendsMore, appends, List.append_assoc]

theorem push (c : Char) : Appends (·.push c) [c] :=
  fun _ => String.toList_push c

theorem text (more : String) : Appends (· ++ more) more.toList :=
  fun _ => String.toList_append

end Appends

/-- Characters inside quotes that are read as one character. -/
def AreReadAs (chars : List Char) (c : Char) : Prop :=
  ∀ text rest, readString? text (chars ++ rest) = readString? (text.map (·.push c)) rest

theorem areReadAs_shortEscape {letter c : Char} (notUnit : letter ≠ 'u')
    (escapes : shortEscape? letter = some c) : AreReadAs ['\\', letter] c := by
  intro text rest
  show readString? text ('\\' :: letter :: rest) = _
  rw [readString?, escapes]
  exact fun _ _ _ _ _ same => absurd same notUnit

theorem areReadAs_self {c : Char} (notQuote : c ≠ '"') (notBackslash : c ≠ '\\')
    (notControl : ¬c.toNat < 0x20) : AreReadAs [c] c := by
  intro text rest
  show readString? text (c :: rest) = _
  rw [readString?, if_neg notControl]
  · exact notQuote
  · exact fun _ _ _ _ _ same => absurd same notBackslash
  · exact fun _ _ same => absurd same notBackslash

theorem codeUnit?_hexDigits : ∀ n < 32,
    codeUnit? '0' '0' (hexDigit (n / 16)) (hexDigit (n % 16)) = some n := by
  decide

theorem areReadAs_codeUnit {c : Char} (control : c.toNat < 0x20) :
    AreReadAs ['\\', 'u', '0', '0', hexDigit (c.toNat / 16), hexDigit (c.toNat % 16)] c := by
  intro text rest
  have notHigh : isHighUnit c.toNat = false := by simp [isHighUnit]; omega
  have notLow : isLowUnit c.toNat = false := by simp [isLowUnit]; omega
  show readString? text ('\\' :: 'u' :: '0' :: '0' :: _ :: _ :: rest) = _
  rw [readString?, codeUnit?_hexDigits c.toNat control]
  simp [notHigh, notLow]

theorem exists_appends_escape {c plain letter : Char} {text : String}
    (same : (c == plain) = true) (written : text.toList = ['\\', letter]) (notUnit : letter ≠ 'u')
    (escapes : shortEscape? letter = some plain) :
    ∃ chars, Appends (· ++ text) chars ∧ AreReadAs chars c :=
  ⟨_, .text text, written ▸ eq_of_beq same ▸ areReadAs_shortEscape notUnit escapes⟩

/-- Every character is written in a way that is read as the character. -/
theorem exists_appends_appendChar (c : Char) :
    ∃ chars, Appends (appendChar · c) chars ∧ AreReadAs chars c := by
  unfold appendChar
  split
  · next same => exact exists_appends_escape same rfl (by decide) rfl
  next notQuote =>
  split
  · next same => exact exists_appends_escape same rfl (by decide) rfl
  next notBackslash =>
  split
  · next same => exact exists_appends_escape same rfl (by decide) rfl
  split
  · next same => exact exists_appends_escape same rfl (by decide) rfl
  split
  · next same => exact exists_appends_escape same rfl (by decide) rfl
  split
  · next same => exact exists_appends_escape same rfl (by decide) rfl
  split
  · next same => exact exists_appends_escape same rfl (by decide) rfl
  split
  · next control =>
    exact ⟨_, ((Appends.text "\\u00").comp (.push _)).comp (.push _), areReadAs_codeUnit control⟩
  · next notControl =>
    exact ⟨_, .push c, areReadAs_self (by simpa using notQuote) (by simpa using notBackslash)
      notControl⟩

/-- The characters of a text in quotes are read as that text. -/
theorem exists_appends_chars (content : List Char) :
    ∃ chars, Appends (content.foldl appendChar ·) chars ∧
      ∀ text rest, readString? (some text) (chars ++ '"' :: rest) =
        some (some (text ++ String.ofList content), rest) := by
  induction content with
  | nil => exact ⟨[], fun out => by simp, fun text rest => by simp [readString?]⟩
  | cons c later hypothesis =>
    obtain ⟨first, appendsFirst, reads⟩ := exists_appends_appendChar c
    obtain ⟨others, appendsOthers, readsOthers⟩ := hypothesis
    refine ⟨first ++ others, appendsFirst.comp appendsOthers, fun text rest => ?_⟩
    rw [List.append_assoc, reads, Option.map_some, readsOthers]
    simp [String.ext_iff]

/-! ## Tokens -/

/-- Characters and the tokens that are read from them, whatever comes after. -/
inductive Spells : List Char → List Token → Prop
  | nil : Spells [] []
  | token {first : Char} {others : List Char} {token : Token}
      (notBlank : isTokenBlank first = false)
      (reads : ∀ rest, readToken? (first :: (others ++ rest)) = some (token, rest)) :
      Spells (first :: others) [token]
  | append {chars more : List Char} {tokens later : List Token}
      (spells : Spells chars tokens) (spellsLater : Spells more later) :
      Spells (chars ++ more) (tokens ++ later)

theorem Spells.exists_tokensWithin {chars : List Char} {tokens : List Token}
    (spells : Spells chars tokens) (found : Array Token) {limit : Nat} {rest : List Char}
    (enough : (chars ++ rest).length ≤ limit) :
    ∃ left, rest.length ≤ left ∧ tokensWithin found limit (chars ++ rest) =
      tokensWithin (found ++ tokens.toArray) left rest := by
  induction spells generalizing found limit rest with
  | nil => exact ⟨limit, enough, by simp⟩
  | @token first others token notBlank reads =>
    cases limit with
    | zero => simp at enough
    | succ limit =>
      refine ⟨limit, by simp at enough; omega, ?_⟩
      simp [tokensWithin, notBlank, reads rest]
  | append spells spellsLater ih ihLater =>
    rw [List.append_assoc] at enough ⊢
    obtain ⟨left, enoughLeft, same⟩ := ih found enough
    obtain ⟨last, enoughLast, sameLater⟩ := ihLater _ enoughLeft
    exact ⟨last, enoughLast, by rw [same, sameLater]; simp⟩

theorem Spells.tokens?_eq {text : String} {tokens : List Token}
    (spells : Spells text.toList tokens) : tokens? text = some tokens.toArray := by
  have enough : (text.toList ++ []).length ≤ text.toList.length :=
    Nat.le_of_eq (congrArg List.length (List.append_nil _))
  obtain ⟨left, -, same⟩ := spells.exists_tokensWithin #[] enough
  rw [List.append_nil] at same
  rw [tokens?, same]
  cases left <;> simp [tokensWithin]

/-- A writer of certain tokens. -/
def Writes (write : String → String) (tokens : List Token) : Prop :=
  ∃ chars, Appends write chars ∧ Spells chars tokens

namespace Writes

theorem comp {write next : String → String} {tokens later : List Token}
    (writes : Writes write tokens) (writesLater : Writes next later) :
    Writes (fun out => next (write out)) (tokens ++ later) := by
  obtain ⟨chars, appends, spells⟩ := writes
  obtain ⟨more, appendsMore, spellsLater⟩ := writesLater
  exact ⟨chars ++ more, appends.comp appendsMore, spells.append spellsLater⟩

theorem push {c : Char} {token : Token} (notBlank : isTokenBlank c = false)
    (reads : ∀ rest, readToken? (c :: rest) = some (token, rest)) : Writes (·.push c) [token] :=
  ⟨[c], .push c, .token notBlank reads⟩

theorem word {text : String} {first : Char} {others : List Char} {token : Token}
    (written : text.toList = first :: others) (notBlank : isTokenBlank first = false)
    (reads : ∀ rest, readToken? (first :: (others ++ rest)) = some (token, rest)) :
    Writes (· ++ text) [token] :=
  ⟨text.toList, .text text, written ▸ .token notBlank reads⟩

theorem nil : Writes (fun out => out) [] :=
  ⟨[], fun out => (List.append_nil out.toList).symm, .nil⟩

theorem openArray : Writes (·.push '[') [.openArray] :=
  .push (by decide) fun _ => rfl

theorem closeArray : Writes (·.push ']') [.closeArray] :=
  .push (by decide) fun _ => rfl

theorem openObject : Writes (·.push '\x7b') [.openObject] :=
  .push (by decide) fun _ => rfl

theorem closeObject : Writes (·.push '\x7d') [.closeObject] :=
  .push (by decide) fun _ => rfl

theorem colon : Writes (·.push ':') [.colon] :=
  .push (by decide) fun _ => rfl

theorem comma : Writes (·.push ',') [.comma] :=
  .push (by decide) fun _ => rfl

theorem appendString (text : String) : Writes (Json.appendString · text) [.text (some text)] := by
  obtain ⟨chars, appends, reads⟩ := exists_appends_chars text.toList
  have quoted := ((Appends.push '"').comp appends).comp (.push '"')
  refine ⟨'"' :: (chars ++ ['"']), quoted, .token (by decide) fun rest => ?_⟩
  rw [List.append_assoc]
  show (readString? (some "") (chars ++ '"' :: rest)).map _ = _
  rw [reads]
  simp

/-- A field is its name, a colon and its value. -/
theorem field (name : String) {write : String → String} {tokens : List Token}
    (writes : Writes write tokens) :
    Writes (fun out => write ((Json.appendString out name).push ':'))
      (.text (some name) :: .colon :: tokens) :=
  (appendString name).comp (colon.comp writes)

end Writes

namespace Value

/-- A value without numbers in which every object has each name once. -/
inductive IsWordy : Value → Prop
  | null : IsWordy null
  | bool (truth : Bool) : IsWordy (bool truth)
  | string (text : String) : IsWordy (string text)
  | array {items : List Value} (each : ∀ item ∈ items, IsWordy item) : IsWordy (array items)
  | object {fields : List (String × Value)} (names : (Entries.keys fields).Nodup)
      (each : ∀ field ∈ fields, IsWordy field.2) : IsWordy (object fields)

mutual

/-- The tokens that a value is written with. -/
def tokens : Value → List Token
  | null => [.leaf (some .null)]
  | bool truth => [.leaf (some (.bool truth))]
  | number n => [.leaf (some (.number n))]
  | string text => [.text (some text)]
  | array [] => [.openArray, .closeArray]
  | array (first :: rest) => .openArray :: (first.tokens ++ (itemTokens rest ++ [.closeArray]))
  | object [] => [.openObject, .closeObject]
  | object ((name, value) :: rest) =>
    .openObject :: .text (some name) :: .colon ::
      (value.tokens ++ (fieldTokens rest ++ [.closeObject]))

/-- The tokens of the items after the first one. -/
def itemTokens : List Value → List Token
  | [] => []
  | item :: rest => .comma :: (item.tokens ++ itemTokens rest)

/-- The tokens of the fields after the first one. -/
def fieldTokens : List (String × Value) → List Token
  | [] => []
  | (name, value) :: rest =>
    .comma :: .text (some name) :: .colon :: (value.tokens ++ fieldTokens rest)

end

mutual

theorem writes_appendCompact :
    ∀ {value : Value}, value.IsWordy → Writes (appendCompact · value) value.tokens
  | .null, _ => .word rfl (by decide) fun _ => rfl
  | .bool true, _ => .word rfl (by decide) fun _ => rfl
  | .bool false, _ => .word rfl (by decide) fun _ => rfl
  | .string text, _ => .appendString text
  | .array [], _ => by
    have same (out : String) : appendCompact out (.array []) = (out.push '[').push ']' := by
      simp [appendCompact, String.ext_iff]
    simp only [same]
    exact Writes.openArray.comp .closeArray
  | .array (first :: _), .array each =>
    have firstWrites := writes_appendCompact (each first List.mem_cons_self)
    have restWrites :=
      writes_appendItems fun item among => each item (List.mem_cons_of_mem first among)
    Writes.openArray.comp (firstWrites.comp (restWrites.comp .closeArray))
  | .object [], _ => by
    have same (out : String) : appendCompact out (.object []) =
        (out.push '\x7b').push '\x7d' := by
      simp [appendCompact, String.ext_iff]
    simp only [same]
    exact Writes.openObject.comp .closeObject
  | .object ((name, value) :: _), .object _ each =>
    have firstWrites := writes_appendCompact (each (name, value) List.mem_cons_self)
    have restWrites :=
      writes_appendFields fun field among => each field (List.mem_cons_of_mem (name, value) among)
    Writes.openObject.comp ((firstWrites.field name).comp (restWrites.comp .closeObject))

theorem writes_appendItems :
    ∀ {items : List Value}, (∀ item ∈ items, IsWordy item) →
      Writes (appendItems · items) (itemTokens items)
  | [], _ => .nil
  | item :: _, each =>
    have itemWrites := writes_appendCompact (each item List.mem_cons_self)
    have restWrites :=
      writes_appendItems fun other among => each other (List.mem_cons_of_mem item among)
    Writes.comma.comp (itemWrites.comp restWrites)

theorem writes_appendFields :
    ∀ {fields : List (String × Value)}, (∀ field ∈ fields, IsWordy field.2) →
      Writes (appendFields · fields) (fieldTokens fields)
  | [], _ => .nil
  | (name, value) :: _, each =>
    have valueWrites := writes_appendCompact (each (name, value) List.mem_cons_self)
    have restWrites :=
      writes_appendFields fun other among => each other (List.mem_cons_of_mem (name, value) among)
    Writes.comma.comp ((valueWrites.field name).comp restWrites)

end

theorem tokens?_compact {value : Value} (wordy : value.IsWordy) :
    tokens? value.compact = some value.tokens.toArray := by
  obtain ⟨chars, appends, spells⟩ := writes_appendCompact wordy
  have same : value.compact.toList = chars := appends ""
  exact (same ▸ spells).tokens?_eq

end Value

end Json

end Statechart
