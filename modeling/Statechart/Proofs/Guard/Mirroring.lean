import Statechart.Proofs.Guard.Scanner
import Statechart.Proofs.Guard.Tokens

/-!
# Scans beside readers

A reader takes characters where a scan moves on by bytes.  A scan mirrors a
reader if the two agree at every offset where the rest of the text begins: what
the scan moves on by are the bytes of the characters taken.  Scans that mirror
readers can be put together, and none of them slices inside of a character.
-/

namespace Statechart

namespace Guard

variable {Result Other : Type} {text rest left before chars : List Char} {c : Char}

/-! ## Bytes -/

theorem byteCount_eq_sum (chars : List Char) : byteCount chars = (chars.map Char.utf8Size).sum := by
  have counted : ∀ start,
      chars.foldl (fun count c => count + c.utf8Size) start =
        start + (chars.map Char.utf8Size).sum := by
    induction chars with
    | nil => simp
    | cons first others ih =>
        intro start
        rw [List.foldl_cons, ih, List.map_cons, List.sum_cons, Nat.add_assoc]
  rw [byteCount, counted, Nat.zero_add]

@[simp]
theorem byteCount_nil : byteCount [] = 0 :=
  rfl

theorem byteCount_cons (c : Char) (rest : List Char) :
    byteCount (c :: rest) = c.utf8Size + byteCount rest := by
  simp [byteCount_eq_sum]

@[simp]
theorem byteCount_singleton (c : Char) : byteCount [c] = c.utf8Size :=
  byteCount_cons c []

theorem byteCount_of_isDigit (digit : c.isDigit = true) : byteCount [c] = 1 := by
  rw [byteCount_singleton, Char.utf8Size_eq_one_iff, UInt32.le_iff_toNat_le]
  exact Nat.le_of_lt_succ (toNat_lt_of_isDigit digit)

@[simp]
theorem byteCount_append (before rest : List Char) :
    byteCount (before ++ rest) = byteCount before + byteCount rest := by
  simp [byteCount_eq_sum]

theorem cut?_cons (bytes : Nat) (c : Char) (rest : List Char) :
    cut? (c.utf8Size + bytes) (c :: rest) = cut? bytes rest := by
  obtain ⟨size, isSize⟩ := Nat.exists_eq_succ_of_ne_zero (Nat.ne_of_gt c.utf8Size_pos)
  rw [isSize, Nat.succ_add, cut?, if_pos (by omega)]
  congr 1
  omega

theorem front?_cons (bytes : Nat) (c : Char) (rest : List Char) :
    front? (c.utf8Size + bytes) (c :: rest) = (front? bytes rest).map (c :: ·) := by
  obtain ⟨size, isSize⟩ := Nat.exists_eq_succ_of_ne_zero (Nat.ne_of_gt c.utf8Size_pos)
  rw [isSize, Nat.succ_add, front?, if_pos (by omega)]
  congr 2
  omega

@[simp]
theorem cut?_append (before rest : List Char) :
    cut? (byteCount before) (before ++ rest) = some rest := by
  induction before with
  | nil => cases rest <;> rfl
  | cons first others ih => rw [byteCount_cons, List.cons_append, cut?_cons, ih]

@[simp]
theorem front?_append (chars rest : List Char) :
    front? (byteCount chars) (chars ++ rest) = some chars := by
  induction chars with
  | nil => cases rest <;> rfl
  | cons first others ih =>
      rw [byteCount_cons, List.cons_append, front?_cons, ih]
      rfl

/-! ## Scans and outcomes -/

/-- Where the rest begins, the scan comes to the outcome. -/
def Mirrors (text : List Char) (scan : Scan Result) (rest : List Char)
    (outcome : Except Flaw (Result × List Char)) : Prop :=
  ∀ ⦃before : List Char⦄, text = before ++ rest →
    match outcome with
    | .ok (result, left) => ∃ chars, rest = chars ++ left ∧
        scan (byteCount before) = .ok (result, byteCount (before ++ chars))
    | .error flaw => scan (byteCount before) = .error (.flaw flaw)

variable {scan : Scan Result} {next : Result → Scan Other} {result : Result} {flaw : Flaw}
  {outcome : Except Flaw (Result × List Char)}

theorem mirrors_pure (result : Result) : Mirrors text (pure result) rest (.ok (result, rest)) :=
  fun before _ => ⟨[], rfl, by rw [List.append_nil]; rfl⟩

theorem mirrors_fail (flaw : Flaw) :
    Mirrors text (Scan.fail flaw : Scan Result) rest (.error flaw) :=
  fun _ _ => rfl

theorem Mirrors.error_bind (mirrors : Mirrors text scan rest (.error flaw)) :
    Mirrors text (scan >>= next) rest (.error flaw) := by
  intro before split
  have failed : scan (byteCount before) = .error (.flaw flaw) := mirrors split
  show (scan (byteCount before) >>= fun found => next found.1 found.2) = .error (.flaw flaw)
  rw [failed]
  rfl

theorem Mirrors.ok_bind {later : Except Flaw (Other × List Char)}
    (mirrors : Mirrors text scan rest (.ok (result, left)))
    (others : Mirrors text (next result) left later) :
    Mirrors text (scan >>= next) rest later := by
  intro before split
  obtain ⟨chars, rfl, scanned⟩ := mirrors split
  have second := others (split.trans (List.append_assoc before chars left).symm)
  have stepped : (scan >>= next) (byteCount before) = next result (byteCount (before ++ chars)) := by
    show (scan (byteCount before) >>= fun found => next found.1 found.2) = _
    rw [scanned]
    rfl
  cases later with
  | error flaw => exact stepped.trans second
  | ok found =>
      obtain ⟨more, rfl, scannedMore⟩ := second
      refine ⟨chars ++ more, (List.append_assoc ..).symm, ?_⟩
      rw [stepped, scannedMore, List.append_assoc]

theorem Mirrors.bind {go : Result × List Char → Except Flaw (Other × List Char)}
    (mirrors : Mirrors text scan rest outcome)
    (others : ∀ result left, left.length ≤ rest.length →
      Mirrors text (next result) left (go (result, left))) :
    Mirrors text (scan >>= next) rest (outcome >>= go) := by
  cases outcome with
  | error flaw => exact mirrors.error_bind
  | ok found =>
      intro before split
      obtain ⟨chars, front, -⟩ := mirrors split
      have shorter : found.2.length ≤ rest.length := by
        rw [front, List.length_append]
        omega
      exact mirrors.ok_bind (others found.1 found.2 shorter) split

theorem Mirrors.map {convert : Result → Other} (mirrors : Mirrors text scan rest outcome) :
    Mirrors text (do return convert (← scan)) rest
      (outcome.map (fun found => (convert found.1, found.2))) := by
  cases outcome with
  | error flaw => exact mirrors.error_bind
  | ok found => exact mirrors.ok_bind (mirrors_pure _)

/-- What a scan does may depend on the offset it has reached. -/
theorem mirrors_get_bind {next : Nat → Scan Other} {later : Except Flaw (Other × List Char)}
    (others : ∀ before, text = before ++ rest →
      Mirrors text (next (byteCount before)) rest later) :
    Mirrors text (get >>= next) rest later :=
  fun before split => others before split split

/-- A scan that succeeds leaves no more than there was. -/
theorem mirrors_of_length_le (mirrors : rest.length ≤ text.length → Mirrors text scan rest outcome) :
    Mirrors text scan rest outcome := by
  intro before split
  exact mirrors (by rw [split, List.length_append]; omega) split

theorem mirrors_remaining : Mirrors text (Scan.remaining text) rest (.ok (rest, rest)) := by
  rintro before rfl
  refine ⟨[], rfl, ?_⟩
  show (Scan.slice (cut? (byteCount before) (before ++ rest))) (byteCount before) = _
  rw [cut?_append, List.append_nil]
  rfl

theorem mirrors_peek : Mirrors text (Scan.peek text) rest (.ok (rest.head?, rest)) :=
  mirrors_remaining.ok_bind (mirrors_pure _)

theorem mirrors_startsWith (beginning : String) :
    Mirrors text (Scan.startsWith text beginning) rest
      (.ok ((skip? beginning rest).isSome, rest)) := by
  refine mirrors_remaining.ok_bind ?_
  rw [skip?]
  cases beginning.toList.isPrefixOf rest with
  | false => exact mirrors_pure false
  | true => exact mirrors_pure true

theorem mirrors_startsWithKeyword (word : String) :
    Mirrors text (Scan.startsWithKeyword text word) rest
      (.ok ((skipKeyword? word rest).isSome, rest)) := by
  refine mirrors_remaining.ok_bind ?_
  cases begins : word.toList.isPrefixOf rest with
  | false =>
      rw [skipKeyword?, skip?, begins, if_neg Bool.false_ne_true]
      exact mirrors_pure false
  | true =>
      obtain ⟨after, rfl⟩ := List.isPrefixOf_iff_prefix.1 begins
      rw [if_pos rfl, cut?_append, skipKeyword?, skip?_append]
      cases after with
      | nil => exact mirrors_pure true
      | cons next others =>
          refine (mirrors_pure (next :: others)).ok_bind ?_
          dsimp only [List.head?_cons, Option.any_some]
          cases Text.isNameChar next with
          | true => exact mirrors_pure false
          | false => exact mirrors_pure true

theorem mirrors_advance (chars left : List Char) {bytes : Nat} (areBytes : byteCount chars = bytes) :
    Mirrors text (Scan.advance bytes) (chars ++ left) (.ok ((), left)) := by
  intro before _
  refine ⟨chars, rfl, ?_⟩
  rw [byteCount_append, areBytes]
  rfl

section

variable {test : Scan Bool} {found : Option (List Char)} {onward otherwise : Scan Other} {bytes : Nat}
  {later : Except Flaw (Other × List Char)}

theorem Mirrors.of_found (tested : Mirrors text test rest (.ok (found.isSome, rest)))
    (isFound : found = some left) (others : Mirrors text onward rest later) :
    Mirrors text (test >>= fun begins => if begins = true then onward else otherwise) rest later := by
  refine tested.ok_bind ?_
  rw [isFound, Option.isSome_some, if_pos rfl]
  exact others

/-- What begins with a word is scanned on after it. -/
theorem Mirrors.of_some (tested : Mirrors text test rest (.ok (found.isSome, rest)))
    (isFound : found = some left) (front : rest = chars ++ left)
    (areBytes : byteCount chars = bytes) (others : Mirrors text onward left later) :
    Mirrors text (test >>= fun begins =>
      if begins = true then Scan.advance bytes >>= fun _ => onward else otherwise) rest later :=
  tested.of_found isFound (Mirrors.ok_bind (front ▸ mirrors_advance chars left areBytes) others)

theorem Mirrors.of_none (tested : Mirrors text test rest (.ok (found.isSome, rest)))
    (missed : found = none) (others : Mirrors text otherwise rest later) :
    Mirrors text (test >>= fun begins => if begins = true then onward else otherwise) rest later := by
  refine tested.ok_bind ?_
  rw [missed, Option.isSome_none, if_neg Bool.false_ne_true]
  exact others

end

theorem mirrors_skipWhile {test : Char → Bool} {bytes : Char → Nat}
    (areBytes : ∀ c, test c = true → byteCount [c] = bytes c) {steps : Nat}
    (enough : rest.length < steps) :
    Mirrors text (Scan.skipWhile text test bytes steps) rest (.ok ((), rest.dropWhile test)) := by
  induction steps generalizing rest with
  | zero => omega
  | succ steps ih =>
      refine mirrors_peek.ok_bind ?_
      cases rest with
      | nil => exact mirrors_pure ()
      | cons c others =>
          dsimp only [List.head?_cons]
          cases passed : test c with
          | true =>
              rw [if_pos rfl, List.dropWhile_cons_of_pos passed]
              have moved : Mirrors text (Scan.advance (bytes c)) (c :: others) (.ok ((), others)) :=
                mirrors_advance [c] others (areBytes c passed)
              exact moved.ok_bind (ih (by simpa using enough))
          | false =>
              rw [if_neg Bool.false_ne_true, List.dropWhile_cons_of_neg (by simp [passed])]
              exact mirrors_pure ()

theorem mirrors_skipBlanks :
    Mirrors text (Scan.skipBlanks text) rest (.ok ((), Text.skipBlanks rest)) :=
  mirrors_of_length_le fun shorter =>
    mirrors_skipWhile (fun c _ => byteCount_singleton c) (Nat.lt_succ_of_le shorter)

theorem mirrors_skipDigits :
    Mirrors text (Scan.skipDigits text) rest (.ok ((), rest.dropWhile Char.isDigit)) :=
  mirrors_of_length_le fun shorter =>
    mirrors_skipWhile (fun _ => byteCount_of_isDigit) (Nat.lt_succ_of_le shorter)

/-- A slice between two offsets that were reached are the characters in between. -/
theorem mirrors_taken (split : text = before ++ (chars ++ rest)) :
    Mirrors text (Scan.taken text (byteCount before)) rest (.ok (chars, rest)) := by
  refine mirrors_get_bind fun reached isReached => ?_
  obtain rfl : before ++ chars = reached := by
    refine List.append_cancel_right (?_ : before ++ chars ++ rest = reached ++ rest)
    rw [← isReached, split, List.append_assoc]
  have sliced : cut? (byteCount before) text = some (chars ++ rest) := by rw [split, cut?_append]
  rw [sliced]
  refine (mirrors_pure (chars ++ rest)).ok_bind ?_
  rw [byteCount_append, if_pos (Nat.le_add_right _ _), Nat.add_sub_cancel_left, front?_append]
  exact mirrors_pure chars

end Guard

end Statechart
