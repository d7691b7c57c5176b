/-
Rows as a table stores them. What a column has stored it stores again
without a change, so a row that has been made normal once stays as it
is; and such a row is one whose every value has its column's type, or is
a NULL that the column takes.
-/
import DialectDb.Schema
import DialectDb.Proofs.Result

namespace DialectDb

-- ============================================================== values

/-- What a column of a type stores is of that type, or NULL. -/
theorem Value.type_of_coerce {value stored : Value} {type : DataType}
    (h : value.coerce type = .ok stored) : stored = .null ∨ stored.type? = some type := by
  unfold Value.coerce at h
  split at h
  case h_1 =>
    cases h
    exact .inl rfl
  case h_7 =>
    split at h <;> cases h
    exact .inr rfl
  case h_8 =>
    split at h
    · cases h
      exact .inr rfl
    · split at h <;> cases h
      exact .inr rfl
  all_goals
    cases h
    try exact .inr rfl

theorem Value.coerce_of_type {value : Value} {type : DataType}
    (h : value = .null ∨ value.type? = some type) : value.coerce type = .ok value := by
  rcases h with rfl | h
  · rfl
  · cases value <;> cases h <;> rfl

-- ============================================================= columns

/-- A value that a column can hold: one of its type, or NULL if the
column takes it. -/
structure Column.Holds (c : Column) (value : Value) : Prop where
  type : value = .null ∨ value.type? = some c.type
  nullable : value = .null → c.nullable = true

/-- A column stores only what it can hold. -/
theorem Table.holds_of_normalizeValue {c : Column} {value stored : Value}
    (h : normalizeValue c value = .ok stored) : c.Holds stored := by
  obtain ⟨coerced, hcoerce, h⟩ := Result.bind_eq_ok.mp h
  split at h
  · cases h
  · next hnull =>
      cases h
      refine ⟨Value.type_of_coerce hcoerce, ?_⟩
      rintro rfl
      simpa using hnull

theorem Table.normalizeValue_of_holds {c : Column} {value : Value} (h : c.Holds value) :
    normalizeValue c value = .ok value := by
  unfold normalizeValue
  rw [Value.coerce_of_type h.type]
  have hnull : ¬(value = .null && !c.nullable) = true := by
    simpa using h.nullable
  show (if _ then _ else _) = _
  rw [if_neg hnull]
  rfl

-- ================================================================ rows

namespace Table

/-- A row that a table can hold: a value for every column, each of them
one that its column can hold. -/
def Holds (t : Table) (row : Row) : Prop :=
  List.Forall₂ Column.Holds t.columns row

/-- The values of a row as columns store them are values that they can
hold. -/
theorem holds_of_normalizeValues {columns : List Column} {row stored : Row}
    (h : normalizeValues columns row = .ok stored) (hlength : row.length = columns.length) :
    List.Forall₂ Column.Holds columns stored := by
  induction columns generalizing row stored with
  | nil =>
      cases h
      exact .nil
  | cons c columns ih =>
      cases row with
      | nil => cases hlength
      | cons value row =>
          obtain ⟨first, hfirst, h⟩ := Result.bind_eq_ok.mp h
          obtain ⟨rest, hrest, h⟩ := Result.bind_eq_ok.mp h
          cases h
          exact .cons (holds_of_normalizeValue hfirst) (ih hrest (Nat.succ.inj hlength))

theorem normalizeValues_of_holds {columns : List Column} {row : Row}
    (h : List.Forall₂ Column.Holds columns row) : normalizeValues columns row = .ok row := by
  induction h with
  | nil => rfl
  | cons hfirst _ ih =>
      unfold normalizeValues
      rw [normalizeValue_of_holds hfirst, ih]
      rfl

/-- A row as a table stores it is a row that it can hold. -/
theorem holds_of_normalizeRow {t : Table} {row stored : Row}
    (h : t.normalizeRow row = .ok stored) : t.Holds stored := by
  unfold normalizeRow at h
  split at h
  · next hlength => exact holds_of_normalizeValues h hlength
  · cases h

/-- A row is stored unchanged iff the table can hold it. -/
theorem normalizeRow_eq_self {t : Table} {row : Row} :
    t.normalizeRow row = .ok row ↔ t.Holds row := by
  constructor
  · exact holds_of_normalizeRow
  · intro h
    unfold normalizeRow
    rw [if_pos h.length_eq.symm, normalizeValues_of_holds h]

end Table

end DialectDb
