/-
Expressions and queries without placeholders, at any depth. Binding gives
no others, and so do the steps that an expression takes on the way to its
value: to the nodes of which it consists, to its form without subqueries,
and to the form that it has once their results are known.
-/
import DialectDb.Query
import DialectDb.Proofs.Binding
import DialectDb.Proofs.Failures
import DialectDb.Proofs.Nodes

namespace DialectDb

/-- No placeholder is left in the expression. -/
def Expr.Closed (e : Expr) : Prop :=
  e.placeholders = []

def Select.Closed (q : Select) : Prop :=
  q.placeholders = []

-- =============================================================== parts

/-- The placeholders of a list are those of all its items. -/
private theorem flatten_eq_nil {α : Type} (all : List α → List Placeholder)
    (item : α → List Placeholder) (hnil : all [] = [])
    (hcons : ∀ a rest, all (a :: rest) = item a ++ all rest) (items : List α) :
    all items = [] ↔ ∀ a ∈ items, item a = [] := by
  induction items with
  | nil => simp [hnil]
  | cons a rest ih => simp [hcons, ih]

theorem Expr.placeholdersOfList_eq_nil (es : List Expr) :
    Expr.placeholdersOfList es = [] ↔ ∀ e ∈ es, e.Closed :=
  flatten_eq_nil _ _ rfl (fun _ _ => rfl) es

theorem Expr.placeholdersOfOption_eq_nil (e? : Option Expr) :
    Expr.placeholdersOfOption e? = [] ↔ ∀ e ∈ e?, e.Closed := by
  cases e? <;> simp [Expr.placeholdersOfOption, Expr.Closed]

namespace Expr

@[simp] theorem closed_all : all.Closed := rfl

@[simp] theorem closed_column (table : Option String) (name : String) :
    (column table name).Closed := rfl

@[simp] theorem closed_literal (value : Value) : (literal value).Closed := rfl

@[simp] theorem closed_excluded (column : String) : (excluded column).Closed := rfl

@[simp] theorem not_closed_parameter (placeholder : Placeholder) :
    ¬(parameter placeholder).Closed := nofun

@[simp] theorem closed_call (f : String) (arguments : List Expr) :
    (call f arguments).Closed ↔ ∀ e ∈ arguments, e.Closed :=
  placeholdersOfList_eq_nil arguments

@[simp] theorem closed_unary (op : UnaryOp) (e : Expr) : (unary op e).Closed ↔ e.Closed := .rfl

@[simp] theorem closed_binary (op : BinaryOp) (l r : Expr) :
    (binary op l r).Closed ↔ l.Closed ∧ r.Closed :=
  List.append_eq_nil_iff

@[simp] theorem closed_inList (e : Expr) (items : List Expr) :
    (inList e items).Closed ↔ e.Closed ∧ ∀ item ∈ items, item.Closed := by
  rw [← placeholdersOfList_eq_nil]
  exact List.append_eq_nil_iff

@[simp] theorem closed_exists (q : Select) : (Expr.exists q).Closed ↔ q.Closed := .rfl

@[simp] theorem closed_inQuery (e : Expr) (q : Select) :
    (inQuery e q).Closed ↔ q.Closed ∧ e.Closed :=
  List.append_eq_nil_iff

end Expr

/-- A query without placeholders, part by part. -/
structure Select.PartsClosed (q : Select) : Prop where
  ctes : ∀ cte ∈ q.ctes, cte.body.Closed
  columns : ∀ item ∈ q.columns, item.expr.Closed
  joins : ∀ join ∈ q.joins, ∀ e ∈ join.predicate, e.Closed
  predicate : ∀ e ∈ q.predicate, e.Closed
  groupBy : ∀ e ∈ q.groupBy, e.Closed
  having : ∀ e ∈ q.having, e.Closed
  unions : ∀ branch ∈ q.unions, branch.select.Closed
  orderBy : ∀ key ∈ q.orderBy, key.expr.Closed
  offset : ∀ e ∈ q.offset, e.Closed
  limit : ∀ e ∈ q.limit, e.Closed

theorem Select.closed_iff (q : Select) : q.Closed ↔ q.PartsClosed := by
  have hctes (ctes : List Cte) :
      Cte.placeholdersOfList ctes = [] ↔ ∀ cte ∈ ctes, cte.body.Closed :=
    flatten_eq_nil _ (·.body.placeholders) rfl (fun ⟨_, _, _, _, _⟩ _ => rfl) ctes
  have hcolumns (items : List SelectItem) :
      SelectItem.placeholdersOfList items = [] ↔ ∀ item ∈ items, item.expr.Closed :=
    flatten_eq_nil _ (·.expr.placeholders) rfl (fun ⟨_, _⟩ _ => rfl) items
  have hjoins (joins : List Join) :
      Join.placeholdersOfList joins = [] ↔ ∀ join ∈ joins, ∀ e ∈ join.predicate, e.Closed := by
    simp only [← Expr.placeholdersOfOption_eq_nil]
    exact flatten_eq_nil Join.placeholdersOfList (Expr.placeholdersOfOption ·.predicate) rfl
      (fun ⟨_, _, _⟩ _ => rfl) joins
  have hunions (branches : List UnionBranch) :
      UnionBranch.placeholdersOfList branches = [] ↔ ∀ branch ∈ branches, branch.select.Closed :=
    flatten_eq_nil _ (·.select.placeholders) rfl (fun ⟨_, _⟩ _ => rfl) branches
  have horderBy (keys : List SortKey) :
      SortKey.placeholdersOfList keys = [] ↔ ∀ key ∈ keys, key.expr.Closed :=
    flatten_eq_nil _ (·.expr.placeholders) rfl (fun ⟨_, _⟩ _ => rfl) keys
  cases q
  simp only [Select.Closed, Select.placeholders, List.flatten_cons, List.flatten_nil,
    List.append_eq_nil_iff, hctes, hcolumns, hjoins, hunions, horderBy,
    Expr.placeholdersOfList_eq_nil, Expr.placeholdersOfOption_eq_nil, and_true]
  constructor
  · intro ⟨hctes, hcolumns, hjoins, hpredicate, hgroupBy, hhaving, hunions, horderBy, hoffset,
      hlimit⟩
    exact ⟨hctes, hcolumns, hjoins, hpredicate, hgroupBy, hhaving, hunions, horderBy, hoffset,
      hlimit⟩
  · intro ⟨hctes, hcolumns, hjoins, hpredicate, hgroupBy, hhaving, hunions, horderBy, hoffset,
      hlimit⟩
    exact ⟨hctes, hcolumns, hjoins, hpredicate, hgroupBy, hhaving, hunions, horderBy, hoffset,
      hlimit⟩

-- ============================================================= binding

/-- What a computation gives, if it gives something, has no
placeholders. -/
abbrev GivesClosed {α : Type} (placeholders : α → List Placeholder) (r : Result α) : Prop :=
  Yields (fun _ => True) (placeholders · = []) r

namespace GivesClosed

variable {α β γ : Type} {first : α → List Placeholder} {rest : β → List Placeholder}
  {all : γ → List Placeholder}

/-- A tree that is made of one part has the placeholders of that part. -/
theorem map {x : Result α} {f : α → γ} (hx : GivesClosed first x)
    (hall : ∀ a, all (f a) = first a) :
    GivesClosed all (x >>= fun a => pure (f a)) :=
  Yields.bind hx fun a _ ha => Yields.pure ((hall a).trans ha)

/-- One that is made of two parts has those of both. -/
theorem map₂ {x : Result α} {y : Result β} {f : α → β → γ} (hx : GivesClosed first x)
    (hy : GivesClosed rest y) (hall : ∀ a b, all (f a b) = first a ++ rest b) :
    GivesClosed all (x >>= fun a => y >>= fun b => pure (f a b)) :=
  Yields.bind hx fun a _ ha => hy.map fun b => by rw [hall, ha, List.nil_append]

theorem mapM {f : α → Result β} (h : ∀ a, GivesClosed rest (f a)) (items : List α) :
    GivesClosed (List.flatMap rest) (items.mapM f) :=
  (Yields.mapM fun a _ => h a).mono fun _ _ hbs => List.flatMap_eq_nil_iff.mpr hbs

end GivesClosed

open GivesClosed

variable (ps : Parameters)

theorem Placeholder.givesClosed_bind (placeholder : Placeholder) :
    GivesClosed Expr.placeholders (placeholder.bind ps) := by
  unfold Placeholder.bind
  split
  · exact .pure rfl
  · exact .fail trivial

mutual

theorem Expr.givesClosed_bind : ∀ e : Expr, GivesClosed Expr.placeholders (e.bind ps)
  | .parameter placeholder => placeholder.givesClosed_bind ps
  | .call _ arguments => (Expr.givesClosed_bindList arguments).map fun _ => rfl
  | .unary _ e => e.givesClosed_bind.map fun _ => rfl
  | .binary _ l r => l.givesClosed_bind.map₂ r.givesClosed_bind fun _ _ => rfl
  | .inList e items => e.givesClosed_bind.map₂ (Expr.givesClosed_bindList items) fun _ _ => rfl
  | .exists q => q.givesClosed_bind.map fun _ => rfl
  | .inQuery e q => q.givesClosed_bind.map₂ e.givesClosed_bind fun _ _ => rfl
  | .all => .pure rfl
  | .column _ _ => .pure rfl
  | .literal _ => .pure rfl
  | .excluded _ => .pure rfl
termination_by structural e => e

theorem Expr.givesClosed_bindList :
    ∀ es : List Expr, GivesClosed Expr.placeholdersOfList (Expr.bindList ps es)
  | [] => .pure rfl
  | e :: es => e.givesClosed_bind.map₂ (Expr.givesClosed_bindList es) fun _ _ => rfl
termination_by structural es => es

theorem Expr.givesClosed_bindOption :
    ∀ e : Option Expr, GivesClosed Expr.placeholdersOfOption (Expr.bindOption ps e)
  | none => .pure rfl
  | some e => e.givesClosed_bind.map fun _ => rfl
termination_by structural e => e

theorem Select.givesClosed_bind : ∀ q : Select, GivesClosed Select.placeholders (q.bind ps)
  | { ctes, columns, joins, predicate, groupBy, having, unions, orderBy, offset, limit, .. } => by
    refine Yields.bind (Cte.givesClosed_bindList ctes) fun ctes _ hctes => ?_
    refine Yields.bind (SelectItem.givesClosed_bindList columns) fun columns _ hcolumns => ?_
    refine Yields.bind (Join.givesClosed_bindList joins) fun joins _ hjoins => ?_
    refine Yields.bind (Expr.givesClosed_bindOption predicate) fun predicate _ hpredicate => ?_
    refine Yields.bind (Expr.givesClosed_bindList groupBy) fun groupBy _ hgroupBy => ?_
    refine Yields.bind (Expr.givesClosed_bindOption having) fun having _ hhaving => ?_
    refine Yields.bind (UnionBranch.givesClosed_bindList unions) fun unions _ hunions => ?_
    refine Yields.bind (SortKey.givesClosed_bindList orderBy) fun orderBy _ horderBy => ?_
    refine Yields.bind (Expr.givesClosed_bindOption offset) fun offset _ hoffset => ?_
    refine Yields.bind (Expr.givesClosed_bindOption limit) fun limit _ hlimit => Yields.pure ?_
    simp [Select.placeholders, hctes, hcolumns, hjoins, hpredicate, hgroupBy, hhaving, hunions,
      horderBy, hoffset, hlimit]
termination_by structural q => q

theorem Cte.givesClosed_bindList :
    ∀ ctes : List Cte, GivesClosed Cte.placeholdersOfList (Cte.bindList ps ctes)
  | [] => .pure rfl
  | { body, .. } :: rest =>
    body.givesClosed_bind.map₂ (Cte.givesClosed_bindList rest) fun _ _ => rfl
termination_by structural ctes => ctes

theorem SelectItem.givesClosed_bindList : ∀ items : List SelectItem,
    GivesClosed SelectItem.placeholdersOfList (SelectItem.bindList ps items)
  | [] => .pure rfl
  | { expr, .. } :: rest =>
    expr.givesClosed_bind.map₂ (SelectItem.givesClosed_bindList rest) fun _ _ => rfl
termination_by structural items => items

theorem Join.givesClosed_bindList :
    ∀ joins : List Join, GivesClosed Join.placeholdersOfList (Join.bindList ps joins)
  | [] => .pure rfl
  | { predicate, .. } :: rest =>
    (Expr.givesClosed_bindOption predicate).map₂ (Join.givesClosed_bindList rest) fun _ _ => rfl
termination_by structural joins => joins

theorem UnionBranch.givesClosed_bindList : ∀ branches : List UnionBranch,
    GivesClosed UnionBranch.placeholdersOfList (UnionBranch.bindList ps branches)
  | [] => .pure rfl
  | { select, .. } :: rest =>
    select.givesClosed_bind.map₂ (UnionBranch.givesClosed_bindList rest) fun _ _ => rfl
termination_by structural branches => branches

theorem SortKey.givesClosed_bindList :
    ∀ keys : List SortKey, GivesClosed SortKey.placeholdersOfList (SortKey.bindList ps keys)
  | [] => .pure rfl
  | { expr, .. } :: rest =>
    expr.givesClosed_bind.map₂ (SortKey.givesClosed_bindList rest) fun _ _ => rfl
termination_by structural keys => keys

end

theorem Assignment.givesClosed_bindList (assignments : List Assignment) :
    GivesClosed Assignment.placeholdersOfList (Assignment.bindList ps assignments) :=
  mapM (fun a => (a.value.givesClosed_bind ps).map fun _ => rfl) assignments

theorem MergeSource.givesClosed_bind (source : MergeSource) :
    GivesClosed MergeSource.placeholders (source.bind ps) := by
  cases source with
  | table t => exact .pure rfl
  | query q aliasName => exact (q.givesClosed_bind ps).map fun _ => rfl

theorem MergeAction.givesClosed_bind (action : MergeAction) :
    GivesClosed MergeAction.placeholders (action.bind ps) := by
  cases action with
  | update assignments =>
      exact (Assignment.givesClosed_bindList ps assignments).map fun _ => rfl
  | delete => exact .pure rfl
  | insert columns values => exact (Expr.givesClosed_bindList ps values).map fun _ => rfl

theorem MergeClause.givesClosed_bind (clause : MergeClause) :
    GivesClosed MergeClause.placeholders (clause.bind ps) :=
  (Expr.givesClosed_bindOption ps clause.condition).map₂ (clause.action.givesClosed_bind ps)
    fun _ _ => rfl

/-- A statement that is bound has no placeholders. -/
theorem Statement.givesClosed_bind (s : Statement) :
    GivesClosed Statement.placeholders (s.bind ps) := by
  cases s with
  | createTable name columns =>
      have hcolumn (c : ColumnDefinition) : GivesClosed
          (fun c : ColumnDefinition => Expr.placeholdersOfOption c.default) (c.bind ps) :=
        (Expr.givesClosed_bindOption ps c.default).map fun _ => rfl
      exact (mapM hcolumn columns).map fun _ => rfl
  | dropTable name ifExists => exact .pure rfl
  | select q => exact (q.givesClosed_bind ps).map fun _ => rfl
  | insert i =>
      refine Yields.bind (mapM (Expr.givesClosed_bindList ps) i.rows) fun rows _ hrows => ?_
      have hquery : GivesClosed (fun q? => (q?.map Select.placeholders).getD [])
          (i.query.mapM (·.bind ps)) := by
        cases i.query with
        | none => exact .pure rfl
        | some q => exact (q.givesClosed_bind ps).map fun _ => rfl
      refine Yields.bind hquery fun query _ hquery => ?_
      refine Yields.bind (Assignment.givesClosed_bindList ps i.assignments) fun _ _ h => .pure ?_
      simp [Statement.placeholders, hrows, hquery, h]
  | update u =>
      exact (Assignment.givesClosed_bindList ps u.assignments).map₂
        (Expr.givesClosed_bindOption ps u.predicate) fun _ _ => rfl
  | delete d => exact (Expr.givesClosed_bindOption ps d.predicate).map fun _ => rfl
  | merge m =>
      refine Yields.bind (m.source.givesClosed_bind ps) fun source _ hsource => ?_
      refine Yields.bind (m.predicate.givesClosed_bind ps) fun predicate _ hpredicate => ?_
      refine Yields.bind (mapM (·.givesClosed_bind ps) m.clauses) fun clauses _ hclauses => .pure ?_
      simp [Statement.placeholders, hsource, hpredicate, hclauses]

mutual

/-- Without placeholders there is nothing to bind. -/
theorem Expr.bind_of_closed : ∀ e : Expr, e.Closed → e.bind ps = .ok e
  | .parameter placeholder, h => absurd h (Expr.not_closed_parameter placeholder)
  | .call f arguments, h => by rw [Expr.bind, Expr.bindList_of_closed arguments h]; rfl
  | .unary op e, h => by rw [Expr.bind, Expr.bind_of_closed e h]; rfl
  | .binary op l r, h => by
    obtain ⟨hl, hr⟩ := List.append_eq_nil_iff.mp h
    rw [Expr.bind, Expr.bind_of_closed l hl, Expr.bind_of_closed r hr]
    rfl
  | .inList e items, h => by
    obtain ⟨he, hitems⟩ := List.append_eq_nil_iff.mp h
    rw [Expr.bind, Expr.bind_of_closed e he, Expr.bindList_of_closed items hitems]
    rfl
  | .exists q, h => by rw [Expr.bind, Select.bind_of_closed q h]; rfl
  | .inQuery e q, h => by
    obtain ⟨hq, he⟩ := List.append_eq_nil_iff.mp h
    rw [Expr.bind, Select.bind_of_closed q hq, Expr.bind_of_closed e he]
    rfl
  | .all, _ => rfl
  | .column _ _, _ => rfl
  | .literal _, _ => rfl
  | .excluded _, _ => rfl
termination_by structural e => e

theorem Expr.bindList_of_closed :
    ∀ es : List Expr, Expr.placeholdersOfList es = [] → Expr.bindList ps es = .ok es
  | [], _ => rfl
  | e :: es, h => by
    obtain ⟨he, hes⟩ := List.append_eq_nil_iff.mp h
    rw [Expr.bindList, Expr.bind_of_closed e he, Expr.bindList_of_closed es hes]
    rfl
termination_by structural es => es

theorem Expr.bindOption_of_closed :
    ∀ e? : Option Expr, Expr.placeholdersOfOption e? = [] → Expr.bindOption ps e? = .ok e?
  | none, _ => rfl
  | some e, h => by rw [Expr.bindOption, Expr.bind_of_closed e h]; rfl
termination_by structural e? => e?

theorem Select.bind_of_closed : ∀ q : Select, q.Closed → q.bind ps = .ok q
  | { ctes, columns, joins, predicate, groupBy, having, unions, orderBy, offset, limit, .. }, h => by
    simp only [Select.Closed, Select.placeholders, List.flatten_cons, List.flatten_nil,
      List.append_eq_nil_iff, and_true] at h
    obtain ⟨hctes, hcolumns, hjoins, hpredicate, hgroupBy, hhaving, hunions, horderBy, hoffset,
      hlimit⟩ := h
    simp only [Select.bind, Cte.bindList_of_closed ctes hctes,
      SelectItem.bindList_of_closed columns hcolumns, Join.bindList_of_closed joins hjoins,
      Expr.bindOption_of_closed predicate hpredicate, Expr.bindList_of_closed groupBy hgroupBy,
      Expr.bindOption_of_closed having hhaving, UnionBranch.bindList_of_closed unions hunions,
      SortKey.bindList_of_closed orderBy horderBy, Expr.bindOption_of_closed offset hoffset,
      Expr.bindOption_of_closed limit hlimit, Result.ok_bind]
    rfl
termination_by structural q => q

theorem Cte.bindList_of_closed :
    ∀ ctes : List Cte, Cte.placeholdersOfList ctes = [] → Cte.bindList ps ctes = .ok ctes
  | [], _ => rfl
  | { body, .. } :: rest, h => by
    obtain ⟨hbody, hrest⟩ := List.append_eq_nil_iff.mp h
    rw [Cte.bindList, Select.bind_of_closed body hbody, Cte.bindList_of_closed rest hrest]
    rfl
termination_by structural ctes => ctes

theorem SelectItem.bindList_of_closed : ∀ items : List SelectItem,
    SelectItem.placeholdersOfList items = [] → SelectItem.bindList ps items = .ok items
  | [], _ => rfl
  | { expr, .. } :: rest, h => by
    obtain ⟨hexpr, hrest⟩ := List.append_eq_nil_iff.mp h
    rw [SelectItem.bindList, Expr.bind_of_closed expr hexpr,
      SelectItem.bindList_of_closed rest hrest]
    rfl
termination_by structural items => items

theorem Join.bindList_of_closed : ∀ joins : List Join,
    Join.placeholdersOfList joins = [] → Join.bindList ps joins = .ok joins
  | [], _ => rfl
  | { predicate, .. } :: rest, h => by
    obtain ⟨hpredicate, hrest⟩ := List.append_eq_nil_iff.mp h
    rw [Join.bindList, Expr.bindOption_of_closed predicate hpredicate,
      Join.bindList_of_closed rest hrest]
    rfl
termination_by structural joins => joins

theorem UnionBranch.bindList_of_closed : ∀ branches : List UnionBranch,
    UnionBranch.placeholdersOfList branches = [] → UnionBranch.bindList ps branches = .ok branches
  | [], _ => rfl
  | { select, .. } :: rest, h => by
    obtain ⟨hselect, hrest⟩ := List.append_eq_nil_iff.mp h
    rw [UnionBranch.bindList, Select.bind_of_closed select hselect,
      UnionBranch.bindList_of_closed rest hrest]
    rfl
termination_by structural branches => branches

theorem SortKey.bindList_of_closed : ∀ keys : List SortKey,
    SortKey.placeholdersOfList keys = [] → SortKey.bindList ps keys = .ok keys
  | [], _ => rfl
  | { expr, .. } :: rest, h => by
    obtain ⟨hexpr, hrest⟩ := List.append_eq_nil_iff.mp h
    rw [SortKey.bindList, Expr.bind_of_closed expr hexpr, SortKey.bindList_of_closed rest hrest]
    rfl
termination_by structural keys => keys

end

-- ========================================================= on the way

namespace Expr

/-- Every node of an expression without placeholders is one. -/
theorem Closed.operand {e o : Expr} (h : e.Closed) (ho : o ∈ e.operands) : o.Closed := by
  cases e <;> simp_all [operands]
  case binary => rcases ho with rfl | rfl <;> simp [h]
  case inList => rcases ho with rfl | ho <;> simp_all

theorem Closed.node {e node : Expr} (h : e.Closed) (hnode : node ∈ e.nodes) : node.Closed := by
  induction e using operands_induction with
  | step e ih =>
      rcases mem_nodes.mp hnode with rfl | ⟨o, ho, hnode⟩
      · exact h
      · exact ih o ho (h.operand ho) hnode

mutual

theorem Closed.withoutSubqueries : ∀ {e : Expr}, e.Closed → e.withoutSubqueries.Closed
  | .exists _, _ => rfl
  | .inQuery e _, h => by
    simp only [Expr.withoutSubqueries, closed_inQuery, closed_inList] at h ⊢
    exact ⟨Closed.withoutSubqueries h.2, nofun⟩
  | .call _ arguments, h => by
    simp only [Expr.withoutSubqueries, closed_call] at h ⊢
    exact Closed.withoutSubqueriesList h
  | .unary _ e, h => Closed.withoutSubqueries (e := e) h
  | .binary _ l r, h => by
    simp only [Expr.withoutSubqueries, closed_binary] at h ⊢
    exact ⟨Closed.withoutSubqueries h.1, Closed.withoutSubqueries h.2⟩
  | .inList e items, h => by
    simp only [Expr.withoutSubqueries, closed_inList] at h ⊢
    exact ⟨Closed.withoutSubqueries h.1, Closed.withoutSubqueriesList h.2⟩
  | .all, _ => rfl
  | .column .., _ => rfl
  | .literal _, _ => rfl
  | .excluded _, _ => rfl
  | .parameter p, h => absurd h (not_closed_parameter p)
termination_by structural e => e

theorem Closed.withoutSubqueriesList : ∀ {es : List Expr}, (∀ e ∈ es, e.Closed) →
    ∀ e ∈ Expr.withoutSubqueriesList es, e.Closed
  | [], _ => nofun
  | _ :: _, h => by
    obtain ⟨hfirst, hrest⟩ := List.forall_mem_cons.mp h
    simp only [Expr.withoutSubqueriesList, List.forall_mem_cons]
    exact ⟨Closed.withoutSubqueries hfirst, Closed.withoutSubqueriesList hrest⟩
termination_by structural es => es

end

end Expr

end DialectDb
