/-
Tables: their columns, what a row of them has to satisfy, and their
written form. Names of tables and columns keep the letter case of their
declaration and are found in any.
-/
import DialectDb.Action
import DialectDb.Lexer
import DialectDb.Value.Storage

namespace DialectDb

-- ============================================================= columns

structure Column where
  name : String
  type : DataType
  /-- Whether the column is in the primary key. Several columns form one
  key together. -/
  primaryKey : Bool := false
  nullable : Bool := true
  /-- The value where none is given; without one, a value has to be
  given. -/
  default : Option Value := some .null
  /-- Whether no two rows have the same value, NULLs apart. -/
  unique : Bool := false
deriving DecidableEq

namespace Column

/-- Puts a column into the primary key. -/
def asPrimaryKey (c : Column) : Column :=
  { c with primaryKey := true, nullable := false, default := none }

/-- Makes a column NOT NULL. A NULL default goes. -/
def asNotNull (c : Column) : Column :=
  { c with nullable := false, default := if c.default = some .null then none else c.default }

end Column

-- ============================================================== tables

structure Table where
  name : String
  columns : List Column
deriving DecidableEq

namespace Table

/-- Checks a column against those before it. -/
def validateColumn (t : Table) (before : List Column) (c : Column) : Result Unit := do
  if c.name = "" then throw (.schema (.unnamedColumn t.name))
  if before.any (Text.sameName ·.name c.name) then
    throw (.schema (.duplicateColumn c.name t.name))
  if c.primaryKey && c.nullable then throw (.schema (.nullableKey c.name))
  match c.default with
  | none => pure ()
  | some value =>
    if value = .null && !c.nullable then throw (.schema (.nullDefault c.name))
    let _ ← value.coerce c.type

/-- Checks columns in order, after those before them. -/
def validateColumns (t : Table) (before : List Column) : List Column → Result Unit
  | [] => .ok ()
  | c :: rest => do
    t.validateColumn before c
    t.validateColumns (before ++ [c]) rest

/-- Checks that a table can exist: it has a name and columns, which have
different names, and the defaults fit. -/
def validate (t : Table) : Result Unit := do
  if t.name = "" then throw (.schema .unnamedTable)
  if t.columns = [] then throw (.schema (.noColumns t.name))
  t.validateColumns [] t.columns

def columnIndex (t : Table) (name : String) : Result Nat :=
  match t.columns.findIdx? (Text.sameName ·.name name) with
  | some index => .ok index
  | none => .error (.schema (.noTableColumn name t.name))

/-- The places of the columns that satisfy a condition. -/
def columnsWhere (t : Table) (p : Column → Bool) : List Nat :=
  (t.columns.zipIdx.filter fun (c, _) => p c).map Prod.snd

/-- The sets of columns whose values together are different in all rows:
the primary key, if there is one, and each unique column outside of
it. -/
def uniqueKeys (t : Table) : List (List Nat) :=
  let primaryKey := t.columnsWhere (·.primaryKey)
  let unique := (t.columnsWhere fun c => c.unique && !c.primaryKey).map fun i => [i]
  if primaryKey.isEmpty then unique else primaryKey :: unique

-- ================================================================ rows

/-- A value as a column stores it. -/
def normalizeValue (c : Column) (value : Value) : Result Value := do
  let value ← value.coerce c.type
  if value = .null && !c.nullable then throw (.constraint (.nullValue c.name))
  return value

/-- The values of a row as the columns store them, one by one. -/
def normalizeValues : List Column → Row → Result Row
  | c :: columns, value :: row => do
    let value ← normalizeValue c value
    return value :: (← normalizeValues columns row)
  | _, _ => .ok []

/-- A row as the table stores it: it has a value for every column, of
the column's type, and NULL only where the column takes it. -/
def normalizeRow (t : Table) (row : Row) : Result Row :=
  if row.length = t.columns.length then normalizeValues t.columns row
  else .error (.schema (.rowWidth row.length t.name t.columns.length))

/-- The values of a row at a key. -/
def keyValues (key : List Nat) (row : Row) : List Value :=
  key.map fun i => row.getD i .null

/-- Whether a row has the given values at a key. -/
def hasKey (row : Row) : List Nat → List Value → Bool
  | i :: key, value :: values => row.getD i .null = value && hasKey row key values
  | key, values => key.isEmpty && values.isEmpty

/-- The rows other than the one at a place. -/
def others (rows : Array Row) (skip : Option Nat) : Array Row :=
  match skip with
  | some index => rows.eraseIdxIfInBounds index
  | none => rows

/-- Checks that a row collides with no other row on a key. With a NULL
there it collides with none. -/
def checkKey (t : Table) (rows : Array Row) (row : Row) (skip : Option Nat) (key : List Nat) :
    Result Unit :=
  let values := keyValues key row
  if !values.contains .null && (others rows skip).any (hasKey · key values) then
    .error (.constraint (.duplicateKey values t.name))
  else .ok ()

/-- Checks that a row collides with no other row on any key. The row at
the place `skip`, which is the row itself, is left out. -/
def checkUnique (t : Table) (rows : Array Row) (row : Row) (skip : Option Nat) : Result Unit :=
  t.uniqueKeys.forM (t.checkKey rows row skip)

/-- Puts a row at the end of a table's rows, checked against all of
them. -/
def append (t : Table) (row : Row) : Action (Array Row) Unit := do
  let rows ← get
  t.checkUnique rows row none
  set (rows.push row)

/-- Checks that the rows at some places collide with no other rows. -/
def checkPlaces (t : Table) (rows : Array Row) (places : List Nat) : Result Unit :=
  places.forM fun index => t.checkUnique rows (rows[index]?.getD []) (some index)

-- ======================================================== written form

/-- A default as it is written; a NULL default is not. -/
def defaultText : Option Value → String
  | none | some .null => ""
  | some (.string s) => " DEFAULT '" ++ Text.doubled '\'' s ++ "'"
  | some value => " DEFAULT " ++ value.text

def columnText (c : Column) : String :=
  "  " ++ Lexer.writtenName c.name ++ " " ++ c.type.text
    ++ (if c.primaryKey then " PRIMARY KEY" else if c.nullable then "" else " NOT NULL")
    ++ defaultText c.default ++ (if c.unique then " UNIQUE" else "")

/-- A table as the statement that creates it. -/
def text (t : Table) : String :=
  "CREATE TABLE " ++ Lexer.writtenName t.name ++ " (\n"
    ++ ",\n".intercalate (t.columns.map columnText)
    ++ (if t.columns.isEmpty then "" else "\n") ++ ")"

end Table

end DialectDb
