/-
What the statements that write rows share: the scope of a table, which
columns the values of INSERT go to, and assignments. Every row is judged
on the rows as they were before the statement; what is written is made
complete first and checked against the table's constraints after.
-/
import DialectDb.Query
import DialectDb.Statement

namespace DialectDb

-- ============================================================== scopes

def Table.columnNames (t : Table) : List String :=
  t.columns.map (·.name)

/-- The scope of a table's columns, under the table's name. -/
def Table.scope (t : Table) : Scope :=
  Scope.ofColumns t.name t.columnNames

-- ======================================================== given columns

/-- The places of the named columns. A column can be named once. -/
def Table.places (t : Table) : List String → List Nat → Result (List Nat)
  | [], places => .ok places
  | name :: rest, places => do
    let index ← t.columnIndex name
    if places.contains index then throw (.schema (.columnTwice name))
    t.places rest (places ++ [index])

/-- The places that the values of INSERT go to: those of the listed
columns, or all of them. -/
def Table.valuePlaces (t : Table) : Option (List String) → Result (List Nat)
  | none => .ok (List.range t.columns.length)
  | some names => t.places names []

/-- Checks the number of values. Without a list of columns there can be
fewer values than columns. -/
def checkValueCount (columns : Option (List String)) (places count : Nat) : Result Unit :=
  if places < count || (columns.isSome && count ≠ places) then .error (.schema .valueCount)
  else .ok ()

/-- The value of a column for which none is given. -/
def Column.fallback (c : Column) : Result Value :=
  match c.default with
  | some value => .ok value
  | none => .error (.constraint (.noDefault c.name))

/-- A row from the values at given places; the other columns take their
defaults. -/
def Table.buildRow (t : Table) (places : List Nat) (values : List Value) : Result Row := do
  let given := places.zip values
  let row ← t.columns.zipIdx.mapM fun (c, index) =>
    match given.lookup index with
    | some value => .ok value
    | none => c.fallback
  t.normalizeRow row

-- ========================================================= assignments

/-- An assignment to the place of a column. -/
structure PlaceAssignment where
  index : Nat
  formula : Formula

def Assignment.resolve (t : Table) (scope : Scope) (a : Assignment) : Result PlaceAssignment := do
  let index ← t.columnIndex a.column
  return ⟨index, ← scope.resolve a.value⟩

def Assignment.resolveList (t : Table) (scope : Scope) (assignments : List Assignment) :
    Result (List PlaceAssignment) :=
  assignments.mapM (·.resolve t scope)

/-- Makes assignments to a row, with values from another. -/
def PlaceAssignment.applyAll (input : Row) : List PlaceAssignment → Row → Result Row
  | [], row => .ok row
  | a :: rest, row => do
    let value ← a.formula.eval input
    applyAll input rest (row.set a.index value)

end DialectDb
