/-
Well-formed statements. The trees of `Expr` and `Statement` have room for
more than can be written: for a CROSS JOIN with a predicate, for WITH in
a branch of UNION, for MERGE that inserts matched rows. What is left
without them is said here, of a tree and of everything inside it.

The row that was to be inserted (`Expr.excluded`) can only be referred
to in upsert assignments, at whatever depth. So an expression is
well-formed where it stands: `upsert` tells whether that is inside of
such assignments.

IS has no other operand than NULL to begin with, since `UnaryOp.isNull`
is an operator of its own.
-/
import DialectDb.Statement

namespace DialectDb

-- ============================================================= queries

/-- A query as it can stand behind UNION. It has no named queries, no
branches and no order of its own, and paging and hints apply to all
branches together. -/
structure Select.IsBranch (q : Select) : Prop where
  ctes : q.ctes = []
  unions : q.unions = []
  orderBy : q.orderBy = []
  offset : q.offset = none
  queryHints : q.queryHints = []

mutual

def Expr.WellFormed (upsert : Bool) : Expr → Prop
  | .excluded _ => upsert = true
  | .call _ arguments => Expr.WellFormedList upsert arguments
  | .unary _ e => e.WellFormed upsert
  | .binary _ l r => l.WellFormed upsert ∧ r.WellFormed upsert
  | .inList e items => e.WellFormed upsert ∧ Expr.WellFormedList upsert items
  | .exists q => q.WellFormed upsert
  | .inQuery e q => e.WellFormed upsert ∧ q.WellFormed upsert
  | .all | .column _ _ | .literal _ | .parameter _ => True
termination_by structural e => e

def Expr.WellFormedList (upsert : Bool) : List Expr → Prop
  | [] => True
  | e :: es => e.WellFormed upsert ∧ Expr.WellFormedList upsert es
termination_by structural es => es

def Expr.WellFormedOption (upsert : Bool) : Option Expr → Prop
  | none => True
  | some e => e.WellFormed upsert
termination_by structural e => e

def Select.WellFormed (upsert : Bool) : Select → Prop
  | { ctes, columns, joins, predicate, groupBy, having, unions, orderBy, offset, limit, .. } =>
    Cte.WellFormedList upsert ctes ∧ SelectItem.WellFormedList upsert columns ∧
      Join.WellFormedList upsert joins ∧ Expr.WellFormedOption upsert predicate ∧
      Expr.WellFormedList upsert groupBy ∧ Expr.WellFormedOption upsert having ∧
      UnionBranch.WellFormedList upsert unions ∧ SortKey.WellFormedList upsert orderBy ∧
      Expr.WellFormedOption upsert offset ∧ Expr.WellFormedOption upsert limit
termination_by structural q => q

/-- A named query has no named queries of its own. -/
def Cte.WellFormedList (upsert : Bool) : List Cte → Prop
  | [] => True
  | { body, .. } :: rest =>
    (body.ctes = [] ∧ body.WellFormed upsert) ∧ Cte.WellFormedList upsert rest
termination_by structural ctes => ctes

def SelectItem.WellFormedList (upsert : Bool) : List SelectItem → Prop
  | [] => True
  | { expr, .. } :: rest => expr.WellFormed upsert ∧ SelectItem.WellFormedList upsert rest
termination_by structural items => items

/-- A join has a predicate iff it is no CROSS JOIN. -/
def Join.WellFormedList (upsert : Bool) : List Join → Prop
  | [] => True
  | { kind, predicate, .. } :: rest =>
    ((predicate = none ↔ kind = .cross) ∧ Expr.WellFormedOption upsert predicate) ∧
      Join.WellFormedList upsert rest
termination_by structural joins => joins

def UnionBranch.WellFormedList (upsert : Bool) : List UnionBranch → Prop
  | [] => True
  | { select, .. } :: rest =>
    (select.IsBranch ∧ select.WellFormed upsert) ∧ UnionBranch.WellFormedList upsert rest
termination_by structural branches => branches

def SortKey.WellFormedList (upsert : Bool) : List SortKey → Prop
  | [] => True
  | { expr, .. } :: rest => expr.WellFormed upsert ∧ SortKey.WellFormedList upsert rest
termination_by structural keys => keys

end

-- =============================================================== parts

variable {upsert : Bool}

def Cte.WellFormed (upsert : Bool) (cte : Cte) : Prop :=
  cte.body.ctes = [] ∧ cte.body.WellFormed upsert

def Join.WellFormed (upsert : Bool) (join : Join) : Prop :=
  (join.predicate = none ↔ join.kind = .cross) ∧ Expr.WellFormedOption upsert join.predicate

def UnionBranch.WellFormed (upsert : Bool) (branch : UnionBranch) : Prop :=
  branch.select.IsBranch ∧ branch.select.WellFormed upsert

/-- A property of lists that goes through them is that of all items. -/
private theorem iff_forall_mem {α : Type} (all : List α → Prop) (item : α → Prop)
    (hnil : all []) (hcons : ∀ a rest, all (a :: rest) ↔ item a ∧ all rest) (items : List α) :
    all items ↔ ∀ a ∈ items, item a := by
  induction items with
  | nil => exact iff_of_true hnil (List.forall_mem_nil _)
  | cons a rest ih => rw [hcons, ih, List.forall_mem_cons]

theorem Expr.wellFormedList_iff (es : List Expr) :
    Expr.WellFormedList upsert es ↔ ∀ e ∈ es, e.WellFormed upsert :=
  iff_forall_mem _ _ trivial (fun _ _ => .rfl) es

theorem Expr.wellFormedOption_iff (e? : Option Expr) :
    Expr.WellFormedOption upsert e? ↔ ∀ e ∈ e?, e.WellFormed upsert := by
  cases e? with
  | none => exact iff_of_true trivial nofun
  | some e => exact ⟨fun h _ he => Option.mem_some.mp he ▸ h, fun h => h e rfl⟩

theorem Cte.wellFormedList_iff (ctes : List Cte) :
    Cte.WellFormedList upsert ctes ↔ ∀ cte ∈ ctes, cte.WellFormed upsert :=
  iff_forall_mem _ _ trivial (fun ⟨_, _, _, _, _⟩ _ => .rfl) ctes

theorem SelectItem.wellFormedList_iff (items : List SelectItem) :
    SelectItem.WellFormedList upsert items ↔ ∀ item ∈ items, item.expr.WellFormed upsert :=
  iff_forall_mem _ (·.expr.WellFormed upsert) trivial (fun ⟨_, _⟩ _ => .rfl) items

theorem Join.wellFormedList_iff (joins : List Join) :
    Join.WellFormedList upsert joins ↔ ∀ join ∈ joins, join.WellFormed upsert :=
  iff_forall_mem _ _ trivial (fun ⟨_, _, _⟩ _ => .rfl) joins

theorem UnionBranch.wellFormedList_iff (branches : List UnionBranch) :
    UnionBranch.WellFormedList upsert branches ↔ ∀ branch ∈ branches, branch.WellFormed upsert :=
  iff_forall_mem _ _ trivial (fun ⟨_, _⟩ _ => .rfl) branches

theorem SortKey.wellFormedList_iff (keys : List SortKey) :
    SortKey.WellFormedList upsert keys ↔ ∀ key ∈ keys, key.expr.WellFormed upsert :=
  iff_forall_mem _ (·.expr.WellFormed upsert) trivial (fun ⟨_, _⟩ _ => .rfl) keys

/-- What is well-formed in a query, part by part. -/
structure Select.PartsWellFormed (upsert : Bool) (q : Select) : Prop where
  ctes : ∀ cte ∈ q.ctes, cte.WellFormed upsert
  columns : ∀ item ∈ q.columns, item.expr.WellFormed upsert
  joins : ∀ join ∈ q.joins, join.WellFormed upsert
  predicate : ∀ e ∈ q.predicate, e.WellFormed upsert
  groupBy : ∀ e ∈ q.groupBy, e.WellFormed upsert
  having : ∀ e ∈ q.having, e.WellFormed upsert
  unions : ∀ branch ∈ q.unions, branch.WellFormed upsert
  orderBy : ∀ key ∈ q.orderBy, key.expr.WellFormed upsert
  offset : ∀ e ∈ q.offset, e.WellFormed upsert
  limit : ∀ e ∈ q.limit, e.WellFormed upsert

theorem Select.wellFormed_iff (q : Select) : q.WellFormed upsert ↔ q.PartsWellFormed upsert := by
  cases q
  simp only [Select.WellFormed, Cte.wellFormedList_iff, SelectItem.wellFormedList_iff,
    Join.wellFormedList_iff, Expr.wellFormedOption_iff, Expr.wellFormedList_iff,
    UnionBranch.wellFormedList_iff, SortKey.wellFormedList_iff]
  constructor
  · rintro ⟨hctes, hcolumns, hjoins, hpredicate, hgroupBy, hhaving, hunions, horderBy, hoffset,
      hlimit⟩
    exact ⟨hctes, hcolumns, hjoins, hpredicate, hgroupBy, hhaving, hunions, horderBy, hoffset,
      hlimit⟩
  · rintro ⟨hctes, hcolumns, hjoins, hpredicate, hgroupBy, hhaving, hunions, horderBy, hoffset,
      hlimit⟩
    exact ⟨hctes, hcolumns, hjoins, hpredicate, hgroupBy, hhaving, hunions, horderBy, hoffset,
      hlimit⟩

-- ========================================================== statements

/-- Assignments of well-formed values. -/
def Assignment.WellFormedList (upsert : Bool) (assignments : List Assignment) : Prop :=
  ∀ a ∈ assignments, a.value.WellFormed upsert

/-- No two assignments are to the same column, in whatever letter
case. -/
def Assignment.Distinct (assignments : List Assignment) : Prop :=
  assignments.Pairwise fun a b => Text.sameName a.column b.column = false

/-- INSERT takes rows or a query but not both, and does at most one thing
about rows that conflict. -/
structure Insert.WellFormed (i : Insert) : Prop where
  source : i.rows ≠ [] ∧ i.query = none ∨ i.rows = [] ∧ i.query ≠ none
  rows : ∀ row ∈ i.rows, ∀ e ∈ row, e.WellFormed false
  query : ∀ q ∈ i.query, q.WellFormed false
  assignments : Assignment.WellFormedList true i.assignments
  distinct : Assignment.Distinct i.assignments
  exclusive : i.ignoreConflicts = true → i.assignments = []
  conflictTarget : i.conflictTarget ≠ [] → i.ignoreConflicts = true ∨ i.assignments ≠ []

def MergeSource.WellFormed : MergeSource → Prop
  | table _ => True
  | query q _ => q.WellFormed false

def MergeAction.isInsert : MergeAction → Bool
  | insert _ _ => true
  | update _ | delete => false

def MergeAction.WellFormed : MergeAction → Prop
  | update assignments => Assignment.WellFormedList false assignments
  | delete => True
  | insert _ values => ∀ e ∈ values, e.WellFormed false

/-- A clause inserts iff it is for source rows without a match. -/
structure MergeClause.WellFormed (clause : MergeClause) : Prop where
  inserts : clause.action.isInsert = !clause.matched
  condition : ∀ e ∈ clause.condition, e.WellFormed false
  action : clause.action.WellFormed

structure Merge.WellFormed (m : Merge) : Prop where
  source : m.source.WellFormed
  predicate : m.predicate.WellFormed false
  clauses : ∀ clause ∈ m.clauses, clause.WellFormed
  nonempty : m.clauses ≠ []

def Statement.WellFormed : Statement → Prop
  | createTable _ columns => ∀ column ∈ columns, ∀ e ∈ column.default, e.WellFormed false
  | dropTable _ _ => True
  | select q => q.WellFormed false
  | insert i => i.WellFormed
  | update u => Assignment.WellFormedList false u.assignments ∧
      ∀ e ∈ u.predicate, e.WellFormed false
  | delete d => ∀ e ∈ d.predicate, e.WellFormed false
  | merge m => m.WellFormed

end DialectDb
