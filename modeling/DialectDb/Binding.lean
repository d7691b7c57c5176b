/-
Binding: every placeholder of a statement is replaced by the literal of
its parameter's value, at any depth, queries included. The first
placeholder without a parameter is the failure; parts are visited in the
order in which they are listed here, and a query inside an expression
before the expression's operands.
-/
import DialectDb.Statement
import DialectDb.Error

namespace DialectDb

-- ======================================================== expressions

/-- The literal that a placeholder is bound to. -/
def Placeholder.bind (ps : Parameters) (placeholder : Placeholder) : Result Expr :=
  match ps.lookup? placeholder with
  | some value => .ok (.literal value)
  | none => .error (.binding (.noParameter placeholder))

mutual

/-- An expression with its placeholders bound. -/
def Expr.bind (ps : Parameters) : Expr → Result Expr
  | .parameter placeholder => placeholder.bind ps
  | .call f arguments => do return .call f (← Expr.bindList ps arguments)
  | .unary op e => do return .unary op (← e.bind ps)
  | .binary op l r => do
    let l ← l.bind ps
    return .binary op l (← r.bind ps)
  | .inList e items => do
    let e ← e.bind ps
    return .inList e (← Expr.bindList ps items)
  | .exists q => do return .exists (← q.bind ps)
  | .inQuery e q => do
    let q ← q.bind ps
    return .inQuery (← e.bind ps) q
  | .all => .ok .all
  | .column table name => .ok (.column table name)
  | .literal value => .ok (.literal value)
  | .excluded column => .ok (.excluded column)
termination_by structural e => e

def Expr.bindList (ps : Parameters) : List Expr → Result (List Expr)
  | [] => .ok []
  | e :: es => do
    let e ← e.bind ps
    return e :: (← Expr.bindList ps es)
termination_by structural es => es

def Expr.bindOption (ps : Parameters) : Option Expr → Result (Option Expr)
  | none => .ok none
  | some e => do return some (← e.bind ps)
termination_by structural e => e

def Select.bind (ps : Parameters) : Select → Result Select
  | { ctes, distinct, columns, source, joins, predicate, groupBy, having, unions, orderBy,
      offset, limit, queryHints } => do
    let ctes ← Cte.bindList ps ctes
    let columns ← SelectItem.bindList ps columns
    let joins ← Join.bindList ps joins
    let predicate ← Expr.bindOption ps predicate
    let groupBy ← Expr.bindList ps groupBy
    let having ← Expr.bindOption ps having
    let unions ← UnionBranch.bindList ps unions
    let orderBy ← SortKey.bindList ps orderBy
    let offset ← Expr.bindOption ps offset
    let limit ← Expr.bindOption ps limit
    return { ctes, distinct, columns, source, joins, predicate, groupBy, having, unions, orderBy,
             offset, limit, queryHints }
termination_by structural q => q

def Cte.bindList (ps : Parameters) : List Cte → Result (List Cte)
  | [] => .ok []
  | { name, columns, recursive, materialized, body } :: rest => do
    let body ← body.bind ps
    return { name, columns, recursive, materialized, body } :: (← Cte.bindList ps rest)
termination_by structural ctes => ctes

def SelectItem.bindList (ps : Parameters) : List SelectItem → Result (List SelectItem)
  | [] => .ok []
  | { expr, aliasName } :: rest => do
    let expr ← expr.bind ps
    return { expr, aliasName } :: (← SelectItem.bindList ps rest)
termination_by structural items => items

def Join.bindList (ps : Parameters) : List Join → Result (List Join)
  | [] => .ok []
  | { kind, table, predicate } :: rest => do
    let predicate ← Expr.bindOption ps predicate
    return { kind, table, predicate } :: (← Join.bindList ps rest)
termination_by structural joins => joins

def UnionBranch.bindList (ps : Parameters) : List UnionBranch → Result (List UnionBranch)
  | [] => .ok []
  | { all, select } :: rest => do
    let select ← select.bind ps
    return { all, select } :: (← UnionBranch.bindList ps rest)
termination_by structural branches => branches

def SortKey.bindList (ps : Parameters) : List SortKey → Result (List SortKey)
  | [] => .ok []
  | { expr, direction } :: rest => do
    let expr ← expr.bind ps
    return { expr, direction } :: (← SortKey.bindList ps rest)
termination_by structural keys => keys

end

-- ========================================================== statements

def Assignment.bindList (ps : Parameters) (assignments : List Assignment) :
    Result (List Assignment) :=
  assignments.mapM fun a => do return { a with value := ← a.value.bind ps }

def ColumnDefinition.bind (ps : Parameters) (column : ColumnDefinition) :
    Result ColumnDefinition := do
  return { column with default := ← Expr.bindOption ps column.default }

def MergeSource.bind (ps : Parameters) : MergeSource → Result MergeSource
  | table t => .ok (table t)
  | query q aliasName => do return query (← q.bind ps) aliasName

def MergeAction.bind (ps : Parameters) : MergeAction → Result MergeAction
  | update assignments => do return update (← Assignment.bindList ps assignments)
  | delete => .ok delete
  | insert columns values => do return insert columns (← Expr.bindList ps values)

def MergeClause.bind (ps : Parameters) (clause : MergeClause) : Result MergeClause := do
  let condition ← Expr.bindOption ps clause.condition
  return { clause with condition, action := ← clause.action.bind ps }

def Statement.bind (ps : Parameters) : Statement → Result Statement
  | createTable name columns => do
    return createTable name (← columns.mapM (·.bind ps))
  | dropTable name ifExists => .ok (dropTable name ifExists)
  | select q => do return select (← q.bind ps)
  | insert i => do
    let rows ← i.rows.mapM (Expr.bindList ps)
    let query ← i.query.mapM (·.bind ps)
    return insert { i with rows, query, assignments := ← Assignment.bindList ps i.assignments }
  | update u => do
    let assignments ← Assignment.bindList ps u.assignments
    return update { u with assignments, predicate := ← Expr.bindOption ps u.predicate }
  | delete d => do return delete { d with predicate := ← Expr.bindOption ps d.predicate }
  | merge m => do
    let source ← m.source.bind ps
    let predicate ← m.predicate.bind ps
    return merge { m with source, predicate, clauses := ← m.clauses.mapM (·.bind ps) }

end DialectDb
