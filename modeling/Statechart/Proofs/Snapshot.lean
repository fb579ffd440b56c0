import Statechart.Snapshot

/-!
# Snapshots are kept as JSON

What is written of a snapshot reads as that snapshot again, whatever it holds.
-/

namespace Statechart

namespace Json

theorem Number.toInt?_ofInt {n : Int} (low : -Int.pow 2 63 ≤ n) (high : n < Int.pow 2 63) :
    (Number.ofInt n).toInt? = some n := by
  unfold Number.ofInt
  split
  · rw [Number.toInt?, Int.toInt64, Int64.toInt_ofInt_of_le low high]
  · next notNegative =>
      have small : n.toNat < UInt64.size := by
        have bound : n < 9223372036854775808 := high
        show n.toNat < 18446744073709551616
        omega
      rw [Number.toInt?, Nat.toUInt64, UInt64.toNat_ofNat_of_lt' small]
      exact congrArg some (Int.toNat_of_nonneg (Int.not_lt.1 notNegative))

namespace Value

theorem int64?_ofInt (n : Int64) : (number (.ofInt n.toInt)).int64? = some n := by
  have inRange : -Int.pow 2 63 ≤ n.toInt ∧ n.toInt < Int.pow 2 63 := ⟨n.le_toInt, n.toInt_lt⟩
  have read : (number (.ofInt n.toInt)).int? = some n.toInt :=
    Number.toInt?_ofInt n.le_toInt n.toInt_lt
  rw [int64?, read]
  show (if _ then some (Int64.ofInt n.toInt) else none) = some n
  rw [if_pos inRange, Int64.ofInt_toInt]

theorem texts?_ofTexts (texts : List String) : (ofTexts texts).texts? = some texts := by
  show (texts.map string).mapM string? = some texts
  rw [List.mapM_map]
  exact (List.mapM_pure (f := id)).trans (congrArg some texts.map_id)

end Value

end Json

namespace Snapshot

/-- The history records of a snapshot as the value of its field. -/
theorem historyOfJson?_object (history : List (String × List String)) :
    historyOfJson? (.object (history.map fun record => (record.1, .ofTexts record.2))) =
      some history := by
  show (history.map _).mapM _ = some history
  rw [List.mapM_map]
  have reads : ∀ record : String × List String,
      (do return (record.1, ← (Json.Value.ofTexts record.2).texts?) :
        Option (String × List String)) = some record := by
    intro record
    rw [Json.Value.texts?_ofTexts]
    rfl
  refine Eq.trans (congrArg (history.mapM ·) (funext reads)) ?_
  exact (List.mapM_pure (f := id)).trans (congrArg some history.map_id)

theorem fieldOr?_history (snapshot : Snapshot) :
    snapshot.toJson.fieldOr? "history" [] historyOfJson? = some snapshot.history := by
  obtain ⟨document, checksum, configuration, history, done, isFinal, createdAt⟩ := snapshot
  cases history with
  | nil => cases done <;> rfl
  | cons record rest => exact historyOfJson?_object (record :: rest)

theorem fieldOr?_done (snapshot : Snapshot) :
    snapshot.toJson.fieldOr? "done" [] Json.Value.texts? = some snapshot.done := by
  obtain ⟨document, checksum, configuration, history, done, isFinal, createdAt⟩ := snapshot
  cases done with
  | nil => cases history <;> rfl
  | cons state rest => cases history <;> exact Json.Value.texts?_ofTexts (state :: rest)

theorem fieldOr?_isFinal (snapshot : Snapshot) :
    snapshot.toJson.fieldOr? "is_final" false Json.Value.bool? = some snapshot.isFinal := by
  obtain ⟨document, checksum, configuration, history, done, isFinal, createdAt⟩ := snapshot
  cases history <;> cases done <;> rfl

theorem field?_createdAt (snapshot : Snapshot) :
    snapshot.toJson.field? "created_at" = some (.number (.ofInt snapshot.createdAt.toInt)) := by
  obtain ⟨document, checksum, configuration, history, done, isFinal, createdAt⟩ := snapshot
  cases history <;> cases done <;> rfl

theorem ofJson?_toJson (snapshot : Snapshot) : ofJson? snapshot.toJson = some snapshot := by
  have described : snapshot.toJson.record? fieldNames = some snapshot.toJson := rfl
  have document : snapshot.toJson.requiredText? "document" = some snapshot.document := rfl
  have checksum : snapshot.toJson.requiredText? "checksum" = some snapshot.checksum := rfl
  have configuration : snapshot.toJson.field? "configuration" =
      some (.ofTexts snapshot.configuration) := rfl
  simp [ofJson?, described, document, checksum, configuration, Json.Value.texts?_ofTexts, fieldOr?_history,
    fieldOr?_done, fieldOr?_isFinal, field?_createdAt, Json.Value.int64?_ofInt]

end Snapshot

end Statechart
