/-
Statements as written. Both ways to write an upsert have one form, as
have the ways to write paging; nothing is left of the dialect.
-/
import DialectDb.Expr

namespace DialectDb

-- ============================================================== tables

structure ColumnDefinition where
  name : String
  type : DataType
  primaryKey : Bool := false
  /-- Whether NULL or NOT NULL was given. -/
  nullable : Option Bool := none
  default : Option Expr := none
  unique : Bool := false

-- ================================================================ rows

/-- A column and the expression it is set to. -/
structure Assignment where
  column : String
  value : Expr

/-- INSERT, with its rows or the query that gives them. It is an upsert
iff there are assignments. -/
structure Insert where
  table : String
  /-- The columns that are given; without a list, all of them. -/
  columns : Option (List String)
  rows : List (List Expr)
  query : Option Select
  /-- The columns on which rows conflict; without any, every key. -/
  conflictTarget : List String := []
  /-- What to set in the row that is in the way. -/
  assignments : List Assignment := []
  /-- Whether a row that conflicts is left out. -/
  ignoreConflicts : Bool := false

/-- Whether the statement is an upsert. -/
def Insert.isUpsert (i : Insert) : Bool :=
  !i.assignments.isEmpty

/-- UPDATE. The assignments are in the order of their column names. -/
structure Update where
  table : String
  assignments : List Assignment
  predicate : Option Expr

structure Delete where
  table : String
  predicate : Option Expr

/-- Where MERGE takes its rows from. -/
inductive MergeSource
  | table (table : TableRef)
  | query (query : Select) (aliasName : String)

/-- What a clause of MERGE does. -/
inductive MergeAction
  | update (assignments : List Assignment)
  | delete
  | insert (columns : Option (List String)) (values : List Expr)

/-- A clause WHEN [NOT] MATCHED. -/
structure MergeClause where
  matched : Bool
  condition : Option Expr
  action : MergeAction

structure Merge where
  target : TableRef
  source : MergeSource
  predicate : Expr
  clauses : List MergeClause

inductive Statement
  | createTable (name : String) (columns : List ColumnDefinition)
  | dropTable (name : String) (ifExists : Bool)
  | select (query : Select)
  | insert (insert : Insert)
  | update (update : Update)
  | delete (delete : Delete)
  | merge (merge : Merge)

end DialectDb
