/-
DELETE and UPDATE: both go over the rows of one table with a mask of
those that the WHERE clause selects, which is evaluated on the table as
it was.
-/
import DialectDb.Execution.Rows

namespace DialectDb

/-- Whether a WHERE clause selects each row of a table. -/
def StoredTable.mask (stored : StoredTable) (store : Store) (predicate : Option Expr) :
    Result (List Bool) :=
  match Expr.condition? { store } predicate with
  | none => .ok (stored.rows.map fun _ => true)
  | some condition => condition.mask stored.table.scope stored.rows

-- ============================================================== DELETE

/-- The rows that a mask leaves, and the number of those it does not. -/
def deleteRows (mask : List Bool) (rows : List Row) : Nat × List Row :=
  ((mask.filter id).length,
    (rows.zip mask).filterMap fun (row, selected) => if selected then none else some row)

def Delete.execute (d : Delete) : Action Store Effect := do
  let store ← get
  let stored ← store.get d.table
  let mask ← stored.mask store d.predicate
  let count ← Store.mutate d.table fun _ => do
    let (count, rows) := deleteRows mask (← get).toList
    set rows.toArray
    return count
  return .deleted count

-- ============================================================== UPDATE

/-- The places that a mask selects. -/
def selectedPlaces (mask : List Bool) : List Nat :=
  (mask.zipIdx.filter fun (selected, _) => selected).map Prod.snd

/-- Makes assignments to the row at a place, with values from that
row. -/
def updateRow (t : Table) (assignments : List PlaceAssignment) (index : Nat) :
    Action (Array Row) Unit := do
  let row := (← get)[index]?.getD []
  let updated ← t.normalizeRow (← PlaceAssignment.applyAll row assignments row)
  modify (·.setIfInBounds index updated)

/-- Makes assignments to the rows at some places. They are checked once
all of them are made, so rows can trade keys. -/
def updateRows (t : Table) (assignments : List PlaceAssignment) (places : List Nat) :
    Action (Array Row) Unit := do
  places.forM (updateRow t assignments)
  t.checkPlaces (← get) places

def Update.execute (u : Update) : Action Store Effect := do
  let store ← get
  let stored ← store.get u.table
  let assignments ← Assignment.resolveList stored.table stored.table.scope u.assignments
  let places := selectedPlaces (← stored.mask store u.predicate)
  Store.mutate u.table fun table => updateRows table assignments places
  return .updated places.length

end DialectDb
