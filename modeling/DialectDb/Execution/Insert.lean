/-
INSERT, with what is to happen to rows that conflict. The rows are
complete before the first of them is written, so a query can read the
table that it inserts into. They are then written one by one, each
against the table with those before it; a failure at one of them leaves
those before it in the copy that is dropped.
-/
import DialectDb.Execution.Rows

namespace DialectDb.Insert

-- ================================================================ rows

/-- The values of INSERT: of its rows, or of its query. -/
def values (i : Insert) (version : DialectVersion) (store : Store) : Result (List Row) :=
  match i.query with
  | some q => do (← q.evaluate version store).rows.collect
  | none => i.rows.mapM (·.mapM Scope.evalConstant)

def buildRows (i : Insert) (t : Table) (places : List Nat) (rows : List Row) :
    Result (List Row) :=
  rows.mapM fun values => do
    checkValueCount i.columns places.length values.length
    t.buildRow places values

-- =========================================================== conflicts

/-- The keys on which rows conflict: the columns that are named, or
every key of the table. -/
def conflictKeys (i : Insert) (t : Table) : Result (List (List Nat)) := do
  if i.conflictTarget.isEmpty then return t.uniqueKeys
  else return [← i.conflictTarget.mapM t.columnIndex]

/-- The first row that has the same values at a key, none of them
NULL. -/
def collision? (rows : Array Row) (row : Row) (key : List Nat) : Option Nat :=
  let values := Table.keyValues key row
  if values.contains .null then none else rows.findIdx? (Table.hasKey · key values)

/-- The row that is in the way of another, at the first key that has
one. -/
def conflict? (keys : List (List Nat)) (rows : Array Row) (row : Row) : Option Nat :=
  keys.findSome? (collision? rows row)

/-- The scope of upsert assignments: the row that is in the way, then
the row that was to be inserted. -/
def conflictScope (t : Table) : Result Scope :=
  t.scope.merge (Scope.ofColumns excludedTable t.columnNames)

/-- What to do with rows that conflict. -/
structure Resolution where
  keys : List (List Nat)
  assignments : List PlaceAssignment
  ignore : Bool

/-- Resolves the names in what is to happen to rows that conflict. -/
def resolution (i : Insert) (t : Table) : Result Resolution := do
  let keys ← i.conflictKeys t
  let scope ← conflictScope t
  let assignments ← Assignment.resolveList t scope i.assignments
  return ⟨keys, assignments, i.ignoreConflicts⟩

/-- Makes the assignments to the row in the way. -/
def upsertRow (t : Table) (assignments : List PlaceAssignment) (index : Nat) (proposed : Row) :
    Action (Array Row) Unit := do
  let rows ← get
  let existing := rows[index]?.getD []
  let updated ← PlaceAssignment.applyAll (existing ++ proposed) assignments existing
  let updated ← t.normalizeRow updated
  t.checkUnique rows updated (some index)
  set (rows.setIfInBounds index updated)

/-- Writes a row, and counts it. -/
def writeRow (t : Table) (r : Resolution) (row : Row) : Action (Array Row) Nat := do
  match conflict? r.keys (← get) row with
  | some index =>
    if r.ignore then return 0
    else
      if r.assignments.isEmpty then t.append row
      else upsertRow t r.assignments index row
      return 1
  | none =>
    t.append row
    return 1

/-- Writes rows one by one, and counts them. -/
def writeRows (t : Table) (r : Resolution) (rows : List Row) : Action (Array Row) Nat :=
  rows.foldlM (fun count row => do return count + (← writeRow t r row)) 0

-- ============================================================== INSERT

def execute (i : Insert) (version : DialectVersion) : Action Store Effect := do
  let store ← get
  let table := (← store.get i.table).table
  let places ← table.valuePlaces i.columns
  let rows ← i.buildRows table places (← i.values version store)
  let resolution ← i.resolution table
  let count ← Store.mutate i.table fun table => writeRows table resolution rows
  return .inserted count

end DialectDb.Insert
