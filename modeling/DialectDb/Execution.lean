/-
The execution of statements on a store. A query gives an answer and
leaves the store as it is; every other statement gives a report, and
changes the store as its last step.
-/
import DialectDb.Binding
import DialectDb.Grammar.Statement
import DialectDb.Execution.Delete
import DialectDb.Execution.Insert
import DialectDb.Execution.Merge

namespace DialectDb

-- ============================================================= outcomes

/-- What a statement gives when it succeeds. -/
inductive Outcome
  | effect (effect : Effect)
  | answer (answer : Answer)

namespace Outcome

def count : Outcome → Nat
  | effect e => e.count
  | answer _ => 0

def summary : Outcome → String
  | effect e => e.summary
  | answer a =>
    "Select \x7b columns: " ++ Text.bracketed (a.columns.map Text.quoted) ++ ", .. \x7d"

/-- The answer of a query; a statement of another kind gives none. -/
def query : Outcome → Result Answer
  | answer a => .ok a
  | effect e => .error (.invalid (.notAQuery e))

/-- The columns and all rows of a query. -/
def table (o : Outcome) : Result (List String × List Row) := do
  let a ← o.query
  return (a.columns, ← a.rows.collect)

/-- The first value of the first row of a query, or NULL if there is
none. No other row is read. -/
def scalar (o : Outcome) : Result Value := do
  match (← o.query).rows.first? with
  | none => return .null
  | some row => return (← row).headD .null

end Outcome

-- ======================================================== CREATE TABLE

/-- The column that a definition makes. Columns of the primary key take
no NULL unless told otherwise, and others do; a column that takes NULL
has it as its default. -/
def ColumnDefinition.column (d : ColumnDefinition) : Result Column := do
  let nullable := d.nullable.getD !d.primaryKey
  let default ←
    match d.default with
    | some e => do pure (some (← (← Scope.evalConstant e).coerce d.type))
    | none => pure (if nullable then some .null else none)
  return { name := d.name, type := d.type, primaryKey := d.primaryKey, nullable, default,
           unique := d.unique }

/-- The table that definitions of columns make. -/
def ColumnDefinition.table (name : String) (columns : List ColumnDefinition) : Result Table := do
  return ⟨name, ← columns.mapM (·.column)⟩

-- ========================================================== statements

namespace Statement

def execute (version : DialectVersion) : Statement → Action Store Outcome
  | createTable name columns => do
    Store.createTable (← ColumnDefinition.table name columns)
    return .effect (.createdTable name)
  | dropTable name ifExists => do
    let existed ← Store.dropTable name ifExists
    return .effect (.droppedTable name existed)
  | select q => do return .answer (← q.evaluate version (← get))
  | insert i => .effect <$> i.execute version
  | update u => .effect <$> u.execute
  | delete d => .effect <$> d.execute
  | merge m => .effect <$> m.execute version

/-- Reads, binds and executes the text of a statement. -/
def run (version : DialectVersion) (parameters : Parameters) (text : String) :
    Action Store Outcome := do
  let statement ← parse version text
  let statement ← statement.bind parameters
  statement.execute version

end Statement

end DialectDb
