/-
What a statement uses of a dialect. Hardly anything in a statement says
in which dialect it was written; what does are the clauses of a query
that some dialects lack, the hints on tables, MERGE itself and what
INSERT does with rows that conflict.

A query is judged by itself (`Select.UsesOnly`), apart from the queries
within it. These are listed at every depth (`Expr.queries`): in WITH,
behind UNION, in EXISTS and IN, wherever an expression stands.
-/
import DialectDb.Dialect
import DialectDb.Statement

namespace DialectDb

-- ============================================================= queries

mutual

/-- The queries within an expression, at every depth. -/
def Expr.queries : Expr → List Select
  | .call _ arguments => Expr.queriesOfList arguments
  | .unary _ e => e.queries
  | .binary _ l r => l.queries ++ r.queries
  | .inList e items => e.queries ++ Expr.queriesOfList items
  | .exists q => q.queries
  | .inQuery e q => e.queries ++ q.queries
  | .all | .column _ _ | .literal _ | .parameter _ | .excluded _ => []
termination_by structural e => e

def Expr.queriesOfList : List Expr → List Select
  | [] => []
  | e :: es => e.queries ++ Expr.queriesOfList es
termination_by structural es => es

def Expr.queriesOfOption : Option Expr → List Select
  | none => []
  | some e => e.queries
termination_by structural e => e

/-- A query and the queries within it. -/
def Select.queries : Select → List Select
  | ⟨ctes, distinct, columns, source, joins, predicate, groupBy, having, unions, orderBy, offset,
      limit, hints⟩ =>
    ⟨ctes, distinct, columns, source, joins, predicate, groupBy, having, unions, orderBy, offset,
        limit, hints⟩ ::
      [Cte.queriesOfList ctes, SelectItem.queriesOfList columns, Join.queriesOfList joins,
        Expr.queriesOfOption predicate, Expr.queriesOfList groupBy, Expr.queriesOfOption having,
        UnionBranch.queriesOfList unions, SortKey.queriesOfList orderBy,
        Expr.queriesOfOption offset, Expr.queriesOfOption limit].flatten
termination_by structural q => q

def Cte.queriesOfList : List Cte → List Select
  | [] => []
  | { body, .. } :: rest => body.queries ++ Cte.queriesOfList rest
termination_by structural ctes => ctes

def SelectItem.queriesOfList : List SelectItem → List Select
  | [] => []
  | { expr, .. } :: rest => expr.queries ++ SelectItem.queriesOfList rest
termination_by structural items => items

def Join.queriesOfList : List Join → List Select
  | [] => []
  | { predicate, .. } :: rest => Expr.queriesOfOption predicate ++ Join.queriesOfList rest
termination_by structural joins => joins

def UnionBranch.queriesOfList : List UnionBranch → List Select
  | [] => []
  | { select, .. } :: rest => select.queries ++ UnionBranch.queriesOfList rest
termination_by structural branches => branches

def SortKey.queriesOfList : List SortKey → List Select
  | [] => []
  | { expr, .. } :: rest => expr.queries ++ SortKey.queriesOfList rest
termination_by structural keys => keys

end

def MergeSource.queries : MergeSource → List Select
  | table _ => []
  | query q _ => q.queries

def MergeAction.queries : MergeAction → List Select
  | update assignments => assignments.flatMap (·.value.queries)
  | delete => []
  | insert _ values => values.flatMap Expr.queries

def MergeClause.queries (clause : MergeClause) : List Select :=
  Expr.queriesOfOption clause.condition ++ clause.action.queries

/-- The queries of a statement, at every depth. -/
def Statement.queries : Statement → List Select
  | createTable _ columns => columns.flatMap fun c => Expr.queriesOfOption c.default
  | dropTable _ _ => []
  | select q => q.queries
  | insert i =>
    i.rows.flatMap (·.flatMap Expr.queries) ++
      ((i.query.map Select.queries).getD [] ++ i.assignments.flatMap (·.value.queries))
  | update u => u.assignments.flatMap (·.value.queries) ++ Expr.queriesOfOption u.predicate
  | delete d => Expr.queriesOfOption d.predicate
  | merge m => m.source.queries ++ (m.predicate.queries ++ m.clauses.flatMap MergeClause.queries)

-- ========================================================== constructs

variable {v : DialectVersion}

/-- The way in which a dialect has to spell hints to have this one. -/
def TableHint.style : TableHint → HintStyle
  | table _ => .table
  | index _ _ _ => .index

def TableRef.UsesOnly (v : DialectVersion) (t : TableRef) : Prop :=
  ∀ hint ∈ t.hints, v.dialect.hints = hint.style

/-- The tables of a query's FROM clause. -/
def Select.tables (q : Select) : List TableRef :=
  q.source.toList ++ q.joins.map (·.table)

/-- A named query that the dialect version lets be named in this way. -/
structure Cte.UsesOnly (v : DialectVersion) (c : Cte) : Prop where
  supported : v.supportsCte = true
  recursive : c.recursive = true → v.supportsRecursiveCte = true
  materialized : c.materialized ≠ none → v.dialect.materializedHint = true

/-- A query that uses only what the dialect version has, apart from the
queries within it. -/
structure Select.UsesOnly (v : DialectVersion) (q : Select) : Prop where
  ctes : ∀ c ∈ q.ctes, c.UsesOnly v
  tables : ∀ t ∈ q.tables, t.UsesOnly v
  queryHints : q.queryHints ≠ [] → v.dialect.hints = .table
  offset : q.offset ≠ none → v.dialect.limitOffset = true ∨ v.supportsPaging = true
  limit : q.limit ≠ none →
    v.dialect.limitOffset = true ∨ v.dialect.top = true ∨ v.supportsFetchFirst = true ∨
      (q.offset ≠ none ∧ v.supportsPaging = true)
  ordered : v.dialect.pagingRequiresOrderBy = true → v.dialect.limitOffset = false →
    q.offset ≠ none → q.orderBy ≠ []

/-- INSERT that says with rows that conflict only what the dialect
version has. -/
structure Insert.UsesOnly (v : DialectVersion) (i : Insert) : Prop where
  conflictTarget : i.conflictTarget ≠ [] → v.dialect.onConflict = true
  ignoreConflicts : i.ignoreConflicts = true → v.dialect.onConflict = true
  assignments : i.assignments ≠ [] →
    v.dialect.onConflict = true ∨ v.dialect.onDuplicateKeyUpdate = true

/-- MERGE, where the dialect version has it, with hints on its tables
that it has. -/
structure Merge.UsesOnly (v : DialectVersion) (m : Merge) : Prop where
  supported : v.supportsMerge = true
  target : m.target.UsesOnly v
  source : ∀ t, m.source = .table t → t.UsesOnly v

-- ========================================================= every depth

/-- An expression in which all queries use only what the dialect version
has. -/
def Expr.Within (v : DialectVersion) (e : Expr) : Prop :=
  ∀ q ∈ e.queries, q.UsesOnly v

/-- Such a query. -/
def Select.Within (v : DialectVersion) (q : Select) : Prop :=
  ∀ inner ∈ q.queries, inner.UsesOnly v

/-- A statement that uses only what the dialect version has. -/
structure Statement.Within (v : DialectVersion) (s : Statement) : Prop where
  insert : ∀ i, s = .insert i → i.UsesOnly v
  merge : ∀ m, s = .merge m → m.UsesOnly v
  queries : ∀ q ∈ s.queries, q.UsesOnly v

-- ========================================================= expressions

namespace Expr

theorem queriesOfList_eq (es : List Expr) : queriesOfList es = es.flatMap queries := by
  induction es with
  | nil => rfl
  | cons e es ih => rw [queriesOfList, ih, List.flatMap_cons]

variable {e l r : Expr} {es : List Expr} {q : Select}

/-- An expression without queries. -/
theorem within_of_nil (h : e.queries = []) : e.Within v := by
  intro q hq
  rw [h] at hq
  cases hq

/-- Expressions, one or none. -/
theorem within_ofOption {e? : Option Expr} (h : ∀ e ∈ e?, e.Within v) :
    ∀ q ∈ queriesOfOption e?, q.UsesOnly v := by
  cases e? with
  | none => exact List.forall_mem_nil _
  | some e => exact h e rfl

/-- Expressions, any number of them. -/
theorem within_ofList (h : ∀ e ∈ es, e.Within v) : ∀ q ∈ queriesOfList es, q.UsesOnly v := by
  rw [queriesOfList_eq]
  exact List.forall_mem_flatMap.mpr h

theorem within_call (f : String) (h : ∀ e ∈ es, e.Within v) : (call f es).Within v :=
  within_ofList h

theorem within_unary (op : UnaryOp) (h : e.Within v) : (unary op e).Within v := h

theorem within_binary (op : BinaryOp) (hl : l.Within v) (hr : r.Within v) :
    (binary op l r).Within v :=
  List.forall_mem_append.mpr ⟨hl, hr⟩

theorem within_inList (h : e.Within v) (hitems : ∀ e ∈ es, e.Within v) :
    (inList e es).Within v :=
  List.forall_mem_append.mpr ⟨h, within_ofList hitems⟩

theorem within_exists (h : q.Within v) : (Expr.exists q).Within v := h

theorem within_inQuery (h : e.Within v) (hq : q.Within v) : (inQuery e q).Within v :=
  List.forall_mem_append.mpr ⟨h, hq⟩

end Expr

-- ============================================================= queries

/-- A query within which all queries use only what the dialect version
has; nothing is said of what it uses itself. -/
structure Select.PartsWithin (v : DialectVersion) (q : Select) : Prop where
  ctes : ∀ c ∈ q.ctes, c.body.Within v
  columns : ∀ item ∈ q.columns, item.expr.Within v
  joins : ∀ join ∈ q.joins, ∀ e ∈ join.predicate, e.Within v
  predicate : ∀ e ∈ q.predicate, e.Within v
  groupBy : ∀ e ∈ q.groupBy, e.Within v
  having : ∀ e ∈ q.having, e.Within v
  unions : ∀ branch ∈ q.unions, branch.select.Within v
  orderBy : ∀ key ∈ q.orderBy, key.expr.Within v
  offset : ∀ e ∈ q.offset, e.Within v
  limit : ∀ e ∈ q.limit, e.Within v

theorem Cte.queriesOfList_eq (ctes : List Cte) :
    queriesOfList ctes = ctes.flatMap (·.body.queries) := by
  induction ctes with
  | nil => rfl
  | cons c ctes ih =>
      cases c
      rw [queriesOfList, ih, List.flatMap_cons]

theorem SelectItem.queriesOfList_eq (items : List SelectItem) :
    queriesOfList items = items.flatMap (·.expr.queries) := by
  induction items with
  | nil => rfl
  | cons item items ih =>
      cases item
      rw [queriesOfList, ih, List.flatMap_cons]

theorem Join.queriesOfList_eq (joins : List Join) :
    queriesOfList joins = joins.flatMap fun join => Expr.queriesOfOption join.predicate := by
  induction joins with
  | nil => rfl
  | cons join joins ih =>
      cases join
      rw [queriesOfList, ih, List.flatMap_cons]

theorem UnionBranch.queriesOfList_eq (branches : List UnionBranch) :
    queriesOfList branches = branches.flatMap (·.select.queries) := by
  induction branches with
  | nil => rfl
  | cons branch branches ih =>
      cases branch
      rw [queriesOfList, ih, List.flatMap_cons]

theorem SortKey.queriesOfList_eq (keys : List SortKey) :
    queriesOfList keys = keys.flatMap (·.expr.queries) := by
  induction keys with
  | nil => rfl
  | cons key keys ih =>
      cases key
      rw [queriesOfList, ih, List.flatMap_cons]

/-- What is within a query is the query and what is within its parts. -/
theorem Select.within_of_parts {q : Select} (hq : q.UsesOnly v) (h : q.PartsWithin v) :
    q.Within v := by
  have hctes : ∀ inner ∈ Cte.queriesOfList q.ctes, inner.UsesOnly v := by
    rw [Cte.queriesOfList_eq]
    exact List.forall_mem_flatMap.mpr h.ctes
  have hcolumns : ∀ inner ∈ SelectItem.queriesOfList q.columns, inner.UsesOnly v := by
    rw [SelectItem.queriesOfList_eq]
    exact List.forall_mem_flatMap.mpr h.columns
  have hjoins : ∀ inner ∈ Join.queriesOfList q.joins, inner.UsesOnly v := by
    rw [Join.queriesOfList_eq]
    exact List.forall_mem_flatMap.mpr fun join hjoin => Expr.within_ofOption (h.joins join hjoin)
  have hunions : ∀ inner ∈ UnionBranch.queriesOfList q.unions, inner.UsesOnly v := by
    rw [UnionBranch.queriesOfList_eq]
    exact List.forall_mem_flatMap.mpr h.unions
  have horderBy : ∀ inner ∈ SortKey.queriesOfList q.orderBy, inner.UsesOnly v := by
    rw [SortKey.queriesOfList_eq]
    exact List.forall_mem_flatMap.mpr h.orderBy
  cases q
  refine List.forall_mem_cons.mpr ⟨hq, List.forall_mem_flatten.mpr ?_⟩
  simp only [List.forall_mem_cons]
  exact ⟨hctes, hcolumns, hjoins, Expr.within_ofOption h.predicate, Expr.within_ofList h.groupBy,
    Expr.within_ofOption h.having, hunions, horderBy, Expr.within_ofOption h.offset,
    Expr.within_ofOption h.limit, List.forall_mem_nil _⟩

end DialectDb
