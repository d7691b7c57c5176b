/-
The evaluation of queries: FROM and JOIN, WHERE, GROUP BY, HAVING, the
selected expressions, ORDER BY, DISTINCT, and over all branches of a
UNION together ORDER BY, OFFSET and LIMIT.

Names are resolved before rows are read. A condition with subqueries is
resolved once without them, and then for each row with the subqueries
replaced by their results for that row, which they see as a row around
them. `Expr.expand` makes that replacement and `Select.answer` evaluates
a query; each calls the other on what is inside, and all else is defined
beforehand, for whatever the subqueries may give.
-/
import DialectDb.Rows.Joined
import DialectDb.Rows.Grouped
import DialectDb.Scope
import DialectDb.Store

namespace DialectDb

-- =========================================================== relations

/-- The columns and rows of a table or of a named query's result. -/
structure Relation where
  columns : List String
  rows : List Row

structure Answer where
  columns : List String
  rows : Rows

/-- What a query can read: the tables, the results of named queries, of
which a later one hides an earlier one of its name, and in a subquery
the rows around it. -/
structure Context where
  store : Store
  ctes : List (String × Relation) := []
  outer : List Frame := []

namespace Context

/-- The relation with a given name. Named queries hide tables. `dual`
is a single row without columns, unless there is a table of that
name. -/
def relation (context : Context) (name : String) : Result Relation :=
  match context.ctes.reverse.find? fun (cte, _) => Text.sameName cte name with
  | some (_, relation) => .ok relation
  | none =>
    match context.store.find? name with
    | some stored => .ok ⟨stored.table.columns.map (·.name), stored.rows⟩
    | none =>
      if Text.sameName name "dual" then .ok ⟨[], [[]]⟩ else .error (.schema (.noTable name))

end Context

-- ======================================================= FROM and JOIN

structure Source where
  scope : Scope
  rows : Rows

namespace Source

/-- The rows of the first table; without one, a single row without
columns. -/
def first (context : Context) : Option TableRef → Result Source
  | none => .ok ⟨{ Scope.empty with outer := context.outer }, Rows.ofList [[]]⟩
  | some table => do
    let relation ← context.relation table.name
    let scope := Scope.ofColumns table.label relation.columns
    return ⟨{ scope with outer := context.outer }, Rows.ofList relation.rows⟩

/-- The rows of a join with a relation, given what combined rows have to
satisfy. The rows on the right are the outer ones only in a right
join. -/
def joinRows (source : Source) (kind : JoinKind) (relation : Relation)
    (predicate : Option Formula) : Result Rows :=
  match kind with
  | .right => do
    let joining : Joining := { predicate, padding := source.scope.width, flipped := true }
    joining.rows (← source.rows.collect) (Rows.ofList relation.rows)
  | kind =>
    let padding := if kind = .left then some relation.columns.length else none
    let joining : Joining := { predicate, padding, flipped := false }
    joining.rows relation.rows source.rows

/-- Joins a table. -/
def join (context : Context) (source : Source) (j : Join) : Result Source := do
  let relation ← context.relation j.table.name
  let scope ← source.scope.merge (Scope.ofColumns j.table.label relation.columns)
  let predicate ← j.predicate.mapM scope.resolve
  return ⟨scope, ← source.joinRows j.kind relation predicate⟩

def ofClause (context : Context) (table : Option TableRef) (joins : List Join) :
    Result Source := do
  joins.foldlM (join context) (← first context table)

end Source

-- =============================================================== WHERE

mutual

/-- An expression with a constant in the place of each subquery; what it
refers to outside of them is the same. -/
def Expr.withoutSubqueries : Expr → Expr
  | .exists _ => .literal (.boolean true)
  | .inQuery e _ => .inList e.withoutSubqueries []
  | .call f arguments => .call f (Expr.withoutSubqueriesList arguments)
  | .unary op e => .unary op e.withoutSubqueries
  | .binary op l r => .binary op l.withoutSubqueries r.withoutSubqueries
  | .inList e items => .inList e.withoutSubqueries (Expr.withoutSubqueriesList items)
  | e => e
termination_by structural e => e

def Expr.withoutSubqueriesList : List Expr → List Expr
  | [] => []
  | e :: es => e.withoutSubqueries :: Expr.withoutSubqueriesList es
termination_by structural es => es

end

/-- A condition, together with what becomes of it once its subqueries
have been replaced by their results, given the rows around them. -/
structure Condition where
  expr : Expr
  expand : List Frame → Result Expr

namespace Condition

def mask (c : Condition) (scope : Scope) (rows : List Row) : Result (List Bool) := do
  if c.expr.containsSubquery then
    let _ ← scope.resolve c.expr.withoutSubqueries
    rows.mapM fun row => do
      let e ← c.expand (⟨scope.layout, row⟩ :: scope.outer)
      Formula.holds (← scope.resolve e) row
  else
    let formula ← scope.resolve c.expr
    rows.mapM (Formula.holds (some formula))

/-- The rows that pass. With subqueries all rows are read first. -/
def select (c : Condition) (source : Source) : Result Rows := do
  if c.expr.containsSubquery then
    let rows ← source.rows.collect
    let mask ← c.mask source.scope rows
    return .ofList ((rows.zip mask).filterMap fun (row, keep) => if keep then some row else none)
  else
    return source.rows.filter (← source.scope.resolve c.expr)

end Condition

-- ============================================================ grouping

/-- The aggregate calls in expressions, each once. -/
def aggregateCalls (es : List Expr) : List Expr :=
  ((es.flatMap Expr.nodes).filter Expr.isAggregate).eraseDups

/-- The label of an expression that is a column already. -/
def columnLabel (scope : Scope) : Formula → Label
  | .column index => scope.labels[index]?.getD .none
  | _ => .none

/-- The formula that an aggregate call takes the values of. `COUNT(*)`
counts rows, as values that are never NULL. -/
def aggregateArgument (scope : Scope) (name : String) : List Expr → Result Formula
  | [.all] => .ok (.const (.boolean true))
  | [argument] => scope.resolve argument
  | arguments => .error (.invalid (.aggregateArgumentCount name arguments.length))

/-- Resolves the aggregate calls, and gives them places after those of
the grouping expressions. -/
def addCalls (scope : Scope) : List Expr → Scope → Result (Scope × List AggregateCall)
  | .call name arguments :: rest, grouped => do
    match Aggregate.ofName? name with
    | none => addCalls scope rest grouped
    | some function =>
      let argument ← aggregateArgument scope name arguments
      let (grouped, calls) ←
        addCalls scope rest (grouped.addExpression (.call name arguments) .none)
      return (grouped, ⟨function, argument⟩ :: calls)
  | _ :: rest, grouped => addCalls scope rest grouped
  | [], grouped => .ok (grouped, [])

/-- Resolves the grouping expressions, and gives them the first places
of the rows after grouping. -/
def addKeys (scope : Scope) : List Expr → Scope → Result (Scope × List Formula)
  | [], grouped => .ok (grouped, [])
  | e :: rest, grouped => do
    let formula ← scope.resolve e
    let (grouped, formulas) ←
      addKeys scope rest (grouped.addExpression e (columnLabel scope formula))
    return (grouped, formula :: formulas)

/-- What to group by and what to aggregate for the expressions that are
evaluated after grouping, and the columns of the rows then. The rows
around stay what they are. -/
def Scope.grouping (scope : Scope) (keys es : List Expr) : Result (Scope × Grouping) := do
  let (grouped, keys) ← addKeys scope keys { Scope.empty with outer := scope.outer }
  let (grouped, calls) ← addCalls scope (aggregateCalls es) grouped
  return (grouped, { keys, calls })

/-- The groups of some rows, for the expressions that are to be
evaluated on them. -/
def Source.grouped (source : Source) (keys es : List Expr) : Result Source := do
  let (scope, grouping) ← source.scope.grouping keys es
  return ⟨scope, ← grouping.rows source.rows⟩

-- ======================================================= selected columns

/-- A column of the result: where its values come from, its label, and
the alias it was given. -/
structure OutputColumn where
  formula : Formula
  label : Label
  aliasName : Option String := none

/-- The label of a selected expression: its alias, or else the name of
the column or of the function that it is. -/
def outputLabel (scope : Scope) (item : SelectItem) (formula : Formula) : Label :=
  match item.aliasName with
  | some aliasName => .unqualified aliasName
  | none =>
    match columnLabel scope formula, item.expr with
    | .none, .call name _ => .unqualified name
    | label, _ => label

/-- The columns that a selected expression makes; a star makes one of
each column there is. -/
def outputColumns (scope : Scope) (grouping : Bool) (item : SelectItem) :
    Result (List OutputColumn) :=
  if item.expr = .all then
    if grouping then .error (.invalid .starInGrouping)
    else .ok (scope.labels.zipIdx.map fun (label, index) => { formula := .column index, label })
  else do
    let formula ← scope.resolve item.expr
    return [{ formula, label := outputLabel scope item formula, aliasName := item.aliasName }]

-- =============================================================== order

/-- A place of a row to sort by. -/
structure OrderKey where
  index : Nat
  direction : SortDirection

def OrderKey.compare (k : OrderKey) (a b : Row) : Ordering :=
  let ordering := (a[k.index]?.getD .null).totalCompare (b[k.index]?.getD .null)
  match k.direction with
  | .ascending => ordering
  | .descending => ordering.swap

/-- The order of two rows: at the first key that tells them apart. -/
def compareRows (keys : List OrderKey) (a b : Row) : Ordering :=
  keys.foldr (fun k rest => (k.compare a b).then rest) .eq

/-- The rows in order; those that the keys do not tell apart keep their
places. -/
def sortRows (keys : List OrderKey) (rows : List Row) : List Row :=
  rows.mergeSort fun a b => compareRows keys a b != .gt

/-- The column of the result that a position in ORDER BY means. They
count from 1. -/
def ordinal (position : Int64) (width : Nat) : Result Nat :=
  let n := position.toInt
  if 1 ≤ n ∧ n ≤ width then .ok (n - 1).toNat
  else .error (.invalid (.orderPosition n))

/-- The column of the result that an alias in ORDER BY means. -/
def aliasPlace? (aliases : List (Option String)) : Expr → Option Nat
  | .column none name => aliases.findIdx? fun aliasName => aliasName.any (Text.sameName · name)
  | _ => none

/-- The place that a sort key means: a position or an alias of the
result, or else that of an expression, which becomes a column behind
those of the result. -/
def orderPlace (scope : Scope) (aliases : List (Option String)) (e : Expr)
    (hidden : List Formula) : Result (Nat × List Formula) :=
  match aliasPlace? aliases e, e with
  | some index, _ => .ok (index, hidden)
  | none, .literal (.integer n) => do return (← ordinal n aliases.length, hidden)
  | none, e => do return (aliases.length + hidden.length, hidden ++ [← scope.resolve e])

def orderKeys (scope : Scope) (aliases : List (Option String)) :
    List SortKey → List Formula → Result (List OrderKey × List Formula)
  | [], hidden => .ok ([], hidden)
  | key :: rest, hidden => do
    let (index, hidden) ← orderPlace scope aliases key.expr hidden
    let (keys, hidden) ← orderKeys scope aliases rest hidden
    return (⟨index, key.direction⟩ :: keys, hidden)

/-- The column of a UNION's result that a sort key means: a position or
a name. -/
def unionOrderKey (columns : List String) (key : SortKey) : Result OrderKey := do
  let index? ←
    match key.expr with
    | .literal (.integer n) => some <$> ordinal n columns.length
    | .column none name => pure (columns.findIdx? (Text.sameName · name))
    | _ => pure none
  match index? with
  | some index => return ⟨index, key.direction⟩
  | none => throw (.schema .unionOrder)

-- ================================================================ core

/-- The value of a row limit, which has to be a natural number. -/
def rowCount (clause : CountClause) : Option Expr → Result (Option Nat)
  | none => .ok none
  | some e => do
    match ← Scope.evalConstant e with
    | .integer n =>
      if 0 ≤ n.toInt then return some n.toInt.toNat
      else throw (.invalid (.rowCount clause (.integer n)))
    | value => throw (.invalid (.rowCount clause value))

/-- The rows of a result in the order of keys that may have places
behind the columns of the result, which are then cut off. -/
def orderRows (keys : List OrderKey) (width : Nat) (rows : Rows) : Result Rows := do
  if keys.isEmpty then return rows
  else return Rows.ofList ((sortRows keys (← rows.collect)).map (·.take width))

namespace Select

/-- Whether the rows of a query are grouped. -/
def isGrouped (q : Select) (orderBy : List SortKey) : Bool :=
  !q.groupBy.isEmpty || q.having.isSome || q.columns.any (·.expr.containsAggregate)
    || orderBy.any (·.expr.containsAggregate)

/-- The expressions that are evaluated after grouping. -/
def groupedExprs (q : Select) (orderBy : List SortKey) : List Expr :=
  q.columns.map (·.expr) ++ q.having.toList ++ orderBy.map (·.expr)

def filtered (condition : Option Condition) (source : Source) : Result Source :=
  match condition with
  | some condition => do return { source with rows := ← condition.select source }
  | none => .ok source

/-- The rows that the selected expressions, HAVING and ORDER BY are
evaluated on. -/
def arranged (q : Select) (orderBy : List SortKey) (source : Source) : Result Source :=
  if q.isGrouped orderBy then source.grouped q.groupBy (q.groupedExprs orderBy) else .ok source

def kept (q : Select) (source : Source) : Result Rows :=
  match q.having with
  | some having => do return source.rows.filter (← source.scope.resolve having)
  | none => .ok source.rows

/-- The result over the rows that its expressions are evaluated on. -/
def output (q : Select) (orderBy : List SortKey) (source : Source) : Result Answer := do
  let rows ← q.kept source
  let columns := (← q.columns.mapM (outputColumns source.scope (q.isGrouped orderBy))).flatten
  let (keys, hidden) ← orderKeys source.scope (columns.map (·.aliasName)) orderBy []
  let rows := rows.project (columns.map (·.formula) ++ hidden)
  let rows ← orderRows keys columns.length rows
  let rows ←
    if q.distinct then do pure (Rows.ofList (Rows.distinct (← rows.collect))) else pure rows
  return ⟨columns.map (·.label.columnName), rows⟩

/-- The result over the rows of the FROM clause. The condition is that of
the WHERE clause. -/
def answerFrom (q : Select) (condition : Option Condition) (orderBy : List SortKey)
    (source : Source) : Result Answer := do
  let source ← filtered condition source
  q.output orderBy (← q.arranged orderBy source)

/-- A query without its UNION branches and row limits, in a given
order. -/
def coreAnswer (q : Select) (context : Context) (condition : Option Condition)
    (orderBy : List SortKey) : Result Answer := do
  q.answerFrom condition orderBy (← Source.ofClause context q.source q.joins)

/-- Appends the rows of UNION branches. Each is evaluated in its turn, so
that a failure in one before it comes first. All of them have as many
columns as the first query. -/
def appendBranches (width : Nat) :
    List (Bool × (Unit → Result Answer)) → List Row → Result (List Row)
  | [], rows => .ok rows
  | (all, branch) :: rest, rows => do
    let branch ← branch ()
    if branch.columns.length ≠ width then throw (.schema .unionWidth)
    let rows := rows ++ (← branch.rows.collect)
    appendBranches width rest (if all then rows else Rows.distinct rows)

/-- A query, given what its UNION branches evaluate to. -/
def assemble (q : Select) (context : Context) (condition : Option Condition)
    (branches : List (Bool × (Unit → Result Answer))) : Result Answer := do
  if !q.ctes.isEmpty then throw (.invalid .nestedWith)
  let offset ← rowCount .offset q.offset
  let limit ← rowCount .limit q.limit
  let answer ←
    if branches.isEmpty then q.coreAnswer context condition q.orderBy
    else do
      let first ← q.coreAnswer context condition []
      let rows ← appendBranches first.columns.length branches (← first.rows.collect)
      let keys ← q.orderBy.mapM (unionOrderKey first.columns)
      pure ⟨first.columns, Rows.ofList (sortRows keys rows)⟩
  let rows := answer.rows.drop (offset.getD 0)
  return { answer with rows := match limit with | some n => rows.take n | none => rows }

end Select

-- =========================================================== subqueries

/-- The literal that EXISTS becomes: whether there is a first row. -/
def Answer.existence (answer : Answer) : Result Expr :=
  match answer.rows.first? with
  | none => .ok (.literal (.boolean false))
  | some row => do
    let _ ← row
    return .literal (.boolean true)

/-- The list that IN compares with: the values of the only column. -/
def Answer.members (answer : Answer) : Result (List Expr) := do
  if answer.columns.length ≠ 1 then
    throw (.invalid (.subqueryWidth answer.columns.length))
  return (← answer.rows.collect).map fun row => .literal (row.headD .null)

mutual

/-- An expression with its subqueries replaced by their results. -/
def Expr.expand (context : Context) : Expr → Result Expr
  | .exists q => do (← q.answer context).existence
  | .inQuery e q => do
    let items ← (← q.answer context).members
    return .inList (← e.expand context) items
  | .call f arguments => do return .call f (← Expr.expandList context arguments)
  | .unary op e => do return .unary op (← e.expand context)
  | .binary op l r => do
    let l ← l.expand context
    return .binary op l (← r.expand context)
  | .inList e items => do
    let e ← e.expand context
    return .inList e (← Expr.expandList context items)
  | .all => .ok .all
  | .column table name => .ok (.column table name)
  | .literal value => .ok (.literal value)
  | .parameter placeholder => .ok (.parameter placeholder)
  | .excluded column => .ok (.excluded column)
termination_by structural e => e

def Expr.expandList (context : Context) : List Expr → Result (List Expr)
  | [] => .ok []
  | e :: es => do
    let e ← e.expand context
    return e :: (← Expr.expandList context es)
termination_by structural es => es

/-- A WHERE clause as a condition on rows. -/
def Expr.condition? (context : Context) : Option Expr → Option Condition
  | none => none
  | some e => some ⟨e, fun outer => e.expand { context with outer }⟩
termination_by structural e => e

def Select.answer (context : Context) : Select → Result Answer
  | ⟨ctes, distinct, columns, source, joins, predicate, groupBy, having, unions, orderBy, offset,
      limit, queryHints⟩ =>
    Select.assemble
      ⟨ctes, distinct, columns, source, joins, predicate, groupBy, having, unions, orderBy, offset,
        limit, queryHints⟩
      context (Expr.condition? context predicate) (UnionBranch.answers context unions)
termination_by structural q => q

def UnionBranch.answers (context : Context) :
    List UnionBranch → List (Bool × (Unit → Result Answer))
  | [] => []
  | ⟨all, select⟩ :: rest =>
    (all, fun _ => select.answer context) :: UnionBranch.answers context rest
termination_by structural branches => branches

end

-- ================================================================ WITH

/-- The result of a named query under the names that it gives to its
columns. -/
def Cte.rename (cte : Cte) (answer : Answer) : Result Relation := do
  let rows ← answer.rows.collect
  if cte.columns.isEmpty then return ⟨answer.columns, rows⟩
  else if cte.columns.length = answer.columns.length then return ⟨cte.columns, rows⟩
  else throw (.schema (.cteWidth cte.name answer.columns.length cte.columns.length))

/-- Evaluates named queries, each of which can read those before it.
Recursive ones are read but never evaluated. -/
def Cte.evaluate (version : DialectVersion) (store : Store)
    (before : List (String × Relation)) (cte : Cte) : Result (List (String × Relation)) := do
  if cte.recursive then throw (.unsupported version (.recursiveEvaluation cte.name))
  let answer ← cte.body.answer { store, ctes := before }
  return before ++ [(cte.name, ← cte.rename answer)]

/-- The result of a query over a store. -/
def Select.evaluate (version : DialectVersion) (store : Store) (q : Select) : Result Answer := do
  let ctes ← q.ctes.foldlM (Cte.evaluate version store) []
  Select.answer { store, ctes } { q with ctes := [] }

end DialectDb
