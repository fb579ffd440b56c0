/-!
# Entries in key order

JSON objects, history records and identifier tables are finite maps that are
read in the order of their keys.  They are lists of pairs whose keys increase
strictly; the functions here look keys up and keep that order.
-/

namespace Statechart

namespace Entries

variable {Key Value : Type} [LT Key] [DecidableLT Key] [DecidableEq Key]

/-- Puts a value at its key, in place of the value the key had. -/
def insert (key : Key) (value : Value) : List (Key × Value) → List (Key × Value)
  | [] => [(key, value)]
  | (other, current) :: rest =>
    if key < other then
      (key, value) :: (other, current) :: rest
    else if key = other then
      (key, value) :: rest
    else
      (other, current) :: insert key value rest

omit [LT Key] [DecidableLT Key] in
def find? (key : Key) : List (Key × Value) → Option Value
  | [] => none
  | (other, current) :: rest => if key = other then some current else find? key rest

omit [LT Key] [DecidableLT Key] in
/-- Gives another value to a key that is there. -/
def replace (key : Key) (value : Value) : List (Key × Value) → List (Key × Value)
  | [] => []
  | (other, current) :: rest =>
    if key = other then (other, value) :: rest else (other, current) :: replace key value rest

omit [LT Key] [DecidableLT Key] in
def contains (key : Key) (entries : List (Key × Value)) : Bool :=
  (find? key entries).isSome

/-- Gives a value to a key, in its place if it is there and in order if not. -/
def set (key : Key) (value : Value) (entries : List (Key × Value)) : List (Key × Value) :=
  if contains key entries then replace key value entries else insert key value entries

omit [LT Key] [DecidableLT Key] in
def erase (key : Key) (entries : List (Key × Value)) : List (Key × Value) :=
  entries.filter (fun entry => entry.1 != key)

omit [LT Key] [DecidableLT Key] [DecidableEq Key] in
def keys (entries : List (Key × Value)) : List Key :=
  entries.map Prod.fst

omit [LT Key] [DecidableLT Key] in
/-- What looking up finds is an entry. -/
theorem mem_of_find? {key : Key} {value : Value} {entries : List (Key × Value)}
    (found : find? key entries = some value) : (key, value) ∈ entries := by
  induction entries with
  | nil => cases found
  | cons entry rest hypothesis =>
    unfold find? at found
    split at found
    · next same =>
      cases found
      exact same ▸ List.mem_cons_self
    · exact List.mem_cons_of_mem _ (hypothesis found)

theorem find?_insert_self (key : Key) (value : Value) (entries : List (Key × Value)) :
    find? key (insert key value entries) = some value := by
  induction entries with
  | nil => simp [insert, find?]
  | cons entry rest hypothesis =>
    obtain ⟨other, current⟩ := entry
    unfold insert
    split
    · simp [find?]
    · split
      · simp [find?]
      · next different => simp [find?, different, hypothesis]

theorem find?_insert_of_ne {key other : Key} (different : other ≠ key) (value : Value)
    (entries : List (Key × Value)) :
    find? other (insert key value entries) = find? other entries := by
  induction entries with
  | nil => simp [insert, find?, different]
  | cons entry rest hypothesis =>
    obtain ⟨first, current⟩ := entry
    unfold insert
    split
    · simp [find?, different]
    · split
      · next same =>
        subst same
        simp [find?, different]
      · simp [find?, hypothesis]

omit [LT Key] [DecidableLT Key] in
theorem find?_replace_self {key : Key} {entries : List (Key × Value)}
    (isThere : contains key entries = true) (value : Value) :
    find? key (replace key value entries) = some value := by
  induction entries with
  | nil => cases isThere
  | cons entry rest hypothesis =>
    obtain ⟨other, current⟩ := entry
    unfold replace
    split
    · next same => simp [find?, same]
    · next different =>
      rw [contains, find?, if_neg different] at isThere
      rw [find?, if_neg different, hypothesis isThere]

omit [LT Key] [DecidableLT Key] in
theorem find?_replace_of_ne {key other : Key} (different : other ≠ key) (value : Value)
    (entries : List (Key × Value)) :
    find? other (replace key value entries) = find? other entries := by
  induction entries with
  | nil => rfl
  | cons entry rest hypothesis =>
    obtain ⟨first, current⟩ := entry
    unfold replace
    split
    · next same => simp [find?, same ▸ different]
    · simp [find?, hypothesis]

omit [LT Key] [DecidableLT Key] in
/-- A key may get the value that it has. -/
theorem replace_of_find? {key : Key} {value : Value} {entries : List (Key × Value)}
    (found : find? key entries = some value) : replace key value entries = entries := by
  induction entries with
  | nil => rfl
  | cons entry rest hypothesis =>
    obtain ⟨other, current⟩ := entry
    unfold find? at found
    unfold replace
    split at found
    · next same => rw [if_pos same, Option.some.inj found]
    · next different => rw [if_neg different, hypothesis found]

theorem find?_set_self (key : Key) (value : Value) (entries : List (Key × Value)) :
    find? key (set key value entries) = some value := by
  unfold set
  split
  · next isThere => exact find?_replace_self isThere value
  · exact find?_insert_self key value entries

theorem find?_set_of_ne {key other : Key} (different : other ≠ key) (value : Value)
    (entries : List (Key × Value)) : find? other (set key value entries) = find? other entries := by
  unfold set
  split
  · exact find?_replace_of_ne different value entries
  · exact find?_insert_of_ne different value entries

theorem set_of_find? {key : Key} {value : Value} {entries : List (Key × Value)}
    (found : find? key entries = some value) : set key value entries = entries := by
  rw [set, contains, found, Option.isSome_some, if_pos rfl, replace_of_find? found]

end Entries

end Statechart
