/-
The store: tables and their rows. A table is kept under its name in
lower case, and the tables in the order of these keys. The rows of a
table are changed one after the other on a copy, which takes their place
if the whole change succeeds. If it fails, at whatever row, the copy is
dropped and what was there is there still.
-/
import DialectDb.Schema

namespace DialectDb

/-- A table and its rows, in the order they were inserted. -/
structure StoredTable where
  table : Table
  rows : List Row
deriving DecidableEq

/-- A stored table under its key. -/
structure Entry where
  key : String
  stored : StoredTable
deriving DecidableEq

structure Store where
  entries : List Entry := []
deriving DecidableEq

namespace Store

-- ============================================================= look-up

/-- The key of a table name. -/
def keyOf (name : String) : String := Text.lower name

def find? (s : Store) (name : String) : Option StoredTable :=
  (s.entries.find? (·.key = keyOf name)).map (·.stored)

/-- The table with a given name, which has to exist. -/
def get (s : Store) (name : String) : Result StoredTable :=
  match s.find? name with
  | some stored => .ok stored
  | none => .error (.schema (.noTable name))

/-- The tables, in the order of their keys. -/
def tables (s : Store) : List Table :=
  s.entries.map (·.stored.table)

def rowCount (s : Store) : Nat :=
  s.entries.foldl (fun n e => n + e.stored.rows.length) 0

-- ============================================================= changes

/-- Puts an entry into a list in the order of the keys. -/
def insertEntry (new : Entry) : List Entry → List Entry
  | [] => [new]
  | e :: rest => if new.key < e.key then new :: e :: rest else e :: insertEntry new rest

def createTable (table : Table) : Action Store Unit := do
  table.validate
  let s ← getThe Store
  let key := keyOf table.name
  if s.entries.any (·.key = key) then throw (.schema (.tableExists table.name))
  set { s with entries := insertEntry ⟨key, ⟨table, []⟩⟩ s.entries }

/-- Drops a table, and tells whether it existed. Without the table it is
a failure, unless that was allowed for. -/
def dropTable (name : String) (ifExists : Bool) : Action Store Bool := do
  let s ← getThe Store
  let key := keyOf name
  if s.entries.any (·.key = key) then
    set { s with entries := s.entries.filter (·.key ≠ key) }
    return true
  else if ifExists then return false
  else throw (.schema (.noTable name))

/-- Replaces the rows of the table under a key. -/
def setRows (s : Store) (key : String) (rows : List Row) : Store :=
  { entries := s.entries.map fun e =>
      if e.key = key then { e with stored := { e.stored with rows } } else e }

/-- Changes the rows of a table. The change works on a copy of them,
which becomes the table's rows only if it succeeds. -/
def mutate {α : Type} (name : String) (change : Table → Action (Array Row) α) :
    Action Store α := do
  let stored ← (← getThe Store).get name
  let (result, rows) := (change stored.table).perform stored.rows.toArray
  let a ← result
  modify (·.setRows (keyOf name) rows.toList)
  return a

/-- Inserts full rows into a table, all of them or none, and counts
them. -/
def insertRows (name : String) (rows : List Row) : Action Store Nat :=
  mutate name fun table => do
    rows.forM fun row => do table.append (← table.normalizeRow row)
    return rows.length

end Store

end DialectDb
