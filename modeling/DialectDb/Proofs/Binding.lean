/-
Binding. Whether it succeeds is a matter of the placeholders alone: they
are listed in the order in which they are visited, at any depth, and the
first that has no parameter is the failure. What a query is bound to is
told field by field (`Select.Bound`).
-/
import DialectDb.Binding
import DialectDb.Proofs.Result

namespace DialectDb

-- ======================================================== placeholders

mutual

/-- The placeholders of an expression, queries inside it included. -/
def Expr.placeholders : Expr → List Placeholder
  | .parameter placeholder => [placeholder]
  | .call _ arguments => Expr.placeholdersOfList arguments
  | .unary _ e => e.placeholders
  | .binary _ l r => l.placeholders ++ r.placeholders
  | .inList e items => e.placeholders ++ Expr.placeholdersOfList items
  | .exists q => q.placeholders
  | .inQuery e q => q.placeholders ++ e.placeholders
  | .all | .column _ _ | .literal _ | .excluded _ => []
termination_by structural e => e

def Expr.placeholdersOfList : List Expr → List Placeholder
  | [] => []
  | e :: es => e.placeholders ++ Expr.placeholdersOfList es
termination_by structural es => es

def Expr.placeholdersOfOption : Option Expr → List Placeholder
  | none => []
  | some e => e.placeholders
termination_by structural e => e

def Select.placeholders : Select → List Placeholder
  | { ctes, columns, joins, predicate, groupBy, having, unions, orderBy, offset, limit, .. } =>
    [Cte.placeholdersOfList ctes, SelectItem.placeholdersOfList columns,
      Join.placeholdersOfList joins, Expr.placeholdersOfOption predicate,
      Expr.placeholdersOfList groupBy, Expr.placeholdersOfOption having,
      UnionBranch.placeholdersOfList unions, SortKey.placeholdersOfList orderBy,
      Expr.placeholdersOfOption offset, Expr.placeholdersOfOption limit].flatten
termination_by structural q => q

def Cte.placeholdersOfList : List Cte → List Placeholder
  | [] => []
  | { body, .. } :: rest => body.placeholders ++ Cte.placeholdersOfList rest
termination_by structural ctes => ctes

def SelectItem.placeholdersOfList : List SelectItem → List Placeholder
  | [] => []
  | { expr, .. } :: rest => expr.placeholders ++ SelectItem.placeholdersOfList rest
termination_by structural items => items

def Join.placeholdersOfList : List Join → List Placeholder
  | [] => []
  | { predicate, .. } :: rest =>
    Expr.placeholdersOfOption predicate ++ Join.placeholdersOfList rest
termination_by structural joins => joins

def UnionBranch.placeholdersOfList : List UnionBranch → List Placeholder
  | [] => []
  | { select, .. } :: rest => select.placeholders ++ UnionBranch.placeholdersOfList rest
termination_by structural branches => branches

def SortKey.placeholdersOfList : List SortKey → List Placeholder
  | [] => []
  | { expr, .. } :: rest => expr.placeholders ++ SortKey.placeholdersOfList rest
termination_by structural keys => keys

end

def Assignment.placeholdersOfList (assignments : List Assignment) : List Placeholder :=
  assignments.flatMap (·.value.placeholders)

def MergeSource.placeholders : MergeSource → List Placeholder
  | table _ => []
  | query q _ => q.placeholders

def MergeAction.placeholders : MergeAction → List Placeholder
  | update assignments => Assignment.placeholdersOfList assignments
  | delete => []
  | insert _ values => Expr.placeholdersOfList values

def MergeClause.placeholders (clause : MergeClause) : List Placeholder :=
  Expr.placeholdersOfOption clause.condition ++ clause.action.placeholders

/-- The placeholders of a statement, at any depth. -/
def Statement.placeholders : Statement → List Placeholder
  | createTable _ columns => columns.flatMap fun c => Expr.placeholdersOfOption c.default
  | dropTable _ _ => []
  | select q => q.placeholders
  | insert i =>
    i.rows.flatMap Expr.placeholdersOfList ++
      ((i.query.map Select.placeholders).getD [] ++ Assignment.placeholdersOfList i.assignments)
  | update u =>
    Assignment.placeholdersOfList u.assignments ++ Expr.placeholdersOfOption u.predicate
  | delete d => Expr.placeholdersOfOption d.predicate
  | merge m =>
    m.source.placeholders ++
      (m.predicate.placeholders ++ m.clauses.flatMap MergeClause.placeholders)

-- ============================================================== failure

/-- A binding fails at the first of some placeholders that has no
parameter, and succeeds if there is none. -/
def BindsAll {α : Type} (ps : Parameters) (placeholders : List Placeholder) (r : Result α) : Prop :=
  match placeholders.find? fun p => (ps.lookup? p).isNone with
  | none => ∃ a, r = .ok a
  | some p => r = .error (.binding (.noParameter p))

namespace BindsAll

variable {α β : Type} {ps : Parameters}

theorem ok (a : α) : BindsAll ps [] (.ok a) :=
  ⟨a, rfl⟩

theorem bind {x : Result α} {f : α → Result β} {first rest : List Placeholder}
    (hx : BindsAll ps first x) (hf : ∀ a, BindsAll ps rest (f a)) :
    BindsAll ps (first ++ rest) (x >>= f) := by
  unfold BindsAll at hx ⊢
  rw [List.find?_append]
  cases hfind : first.find? fun p => (ps.lookup? p).isNone with
  | none =>
      rw [hfind] at hx
      obtain ⟨a, rfl⟩ := hx
      exact hf a
  | some p =>
      rw [hfind] at hx
      rw [show x = _ from hx]
      rfl

theorem map {x : Result α} {f : α → β} {placeholders : List Placeholder}
    (hx : BindsAll ps placeholders x) :
    BindsAll ps placeholders (x >>= fun a => pure (f a)) := by
  rw [← List.append_nil placeholders]
  exact hx.bind fun a => ok (f a)

theorem mapM {f : α → Result β} {placeholders : α → List Placeholder}
    (hf : ∀ a, BindsAll ps (placeholders a) (f a)) (items : List α) :
    BindsAll ps (items.flatMap placeholders) (items.mapM f) := by
  induction items with
  | nil => exact ok []
  | cons a rest ih =>
      rw [List.mapM_cons, List.flatMap_cons]
      exact (hf a).bind fun b => ih.map

/-- It fails iff one of the placeholders has no parameter. -/
theorem error_iff {r : Result α} {placeholders : List Placeholder}
    (h : BindsAll ps placeholders r) :
    (∃ failure, r = .error failure) ↔ ∃ p ∈ placeholders, ps.lookup? p = none := by
  simp only [← Option.isNone_iff_eq_none]
  unfold BindsAll at h
  split at h
  · next hfind =>
      obtain ⟨a, rfl⟩ := h
      have hall := List.find?_eq_none.mp hfind
      constructor
      · rintro ⟨failure, hfailure⟩
        cases hfailure
      · rintro ⟨p, hp, hnone⟩
        exact absurd hnone (hall p hp)
  · next p hfind =>
      have hnone := List.find?_some hfind
      constructor
      · intro _
        exact ⟨p, List.mem_of_find?_eq_some hfind, hnone⟩
      · intro _
        exact ⟨_, h⟩

end BindsAll

open BindsAll

variable (ps : Parameters)

theorem Placeholder.bindsAll (placeholder : Placeholder) :
    BindsAll ps [placeholder] (placeholder.bind ps) := by
  unfold BindsAll Placeholder.bind
  rw [List.find?_singleton]
  cases h : ps.lookup? placeholder with
  | none => rfl
  | some value => exact ⟨_, rfl⟩

mutual

theorem Expr.bindsAll : ∀ e : Expr, BindsAll ps e.placeholders (e.bind ps)
  | .parameter placeholder => placeholder.bindsAll ps
  | .call _ arguments => (Expr.bindsAll_list arguments).map
  | .unary _ e => e.bindsAll.map
  | .binary _ l r => l.bindsAll.bind fun _ => r.bindsAll.map
  | .inList e items => e.bindsAll.bind fun _ => (Expr.bindsAll_list items).map
  | .exists q => q.bindsAll.map
  | .inQuery e q => q.bindsAll.bind fun _ => e.bindsAll.map
  | .all => ok _
  | .column _ _ => ok _
  | .literal _ => ok _
  | .excluded _ => ok _
termination_by structural e => e

theorem Expr.bindsAll_list :
    ∀ es : List Expr, BindsAll ps (Expr.placeholdersOfList es) (Expr.bindList ps es)
  | [] => ok []
  | e :: es => e.bindsAll.bind fun _ => (Expr.bindsAll_list es).map
termination_by structural es => es

theorem Expr.bindsAll_option :
    ∀ e : Option Expr, BindsAll ps (Expr.placeholdersOfOption e) (Expr.bindOption ps e)
  | none => ok none
  | some e => e.bindsAll.map
termination_by structural e => e

theorem Select.bindsAll : ∀ q : Select, BindsAll ps q.placeholders (q.bind ps)
  | { ctes, columns, joins, predicate, groupBy, having, unions, orderBy, offset, limit, .. } => by
    simp only [Select.placeholders, List.flatten_cons, List.flatten_nil]
    exact (Cte.bindsAll_list ctes).bind fun _ => (SelectItem.bindsAll_list columns).bind fun _ =>
      (Join.bindsAll_list joins).bind fun _ => (Expr.bindsAll_option predicate).bind fun _ =>
      (Expr.bindsAll_list groupBy).bind fun _ => (Expr.bindsAll_option having).bind fun _ =>
      (UnionBranch.bindsAll_list unions).bind fun _ => (SortKey.bindsAll_list orderBy).bind fun _ =>
      (Expr.bindsAll_option offset).bind fun _ => (Expr.bindsAll_option limit).bind fun _ => ok _
termination_by structural q => q

theorem Cte.bindsAll_list :
    ∀ ctes : List Cte, BindsAll ps (Cte.placeholdersOfList ctes) (Cte.bindList ps ctes)
  | [] => ok []
  | { body, .. } :: rest => body.bindsAll.bind fun _ => (Cte.bindsAll_list rest).map
termination_by structural ctes => ctes

theorem SelectItem.bindsAll_list : ∀ items : List SelectItem,
    BindsAll ps (SelectItem.placeholdersOfList items) (SelectItem.bindList ps items)
  | [] => ok []
  | { expr, .. } :: rest => expr.bindsAll.bind fun _ => (SelectItem.bindsAll_list rest).map
termination_by structural items => items

theorem Join.bindsAll_list :
    ∀ joins : List Join, BindsAll ps (Join.placeholdersOfList joins) (Join.bindList ps joins)
  | [] => ok []
  | { predicate, .. } :: rest =>
    (Expr.bindsAll_option predicate).bind fun _ => (Join.bindsAll_list rest).map
termination_by structural joins => joins

theorem UnionBranch.bindsAll_list : ∀ branches : List UnionBranch,
    BindsAll ps (UnionBranch.placeholdersOfList branches) (UnionBranch.bindList ps branches)
  | [] => ok []
  | { select, .. } :: rest => select.bindsAll.bind fun _ => (UnionBranch.bindsAll_list rest).map
termination_by structural branches => branches

theorem SortKey.bindsAll_list :
    ∀ keys : List SortKey, BindsAll ps (SortKey.placeholdersOfList keys) (SortKey.bindList ps keys)
  | [] => ok []
  | { expr, .. } :: rest => expr.bindsAll.bind fun _ => (SortKey.bindsAll_list rest).map
termination_by structural keys => keys

end

theorem Assignment.bindsAll_list (assignments : List Assignment) :
    BindsAll ps (Assignment.placeholdersOfList assignments) (Assignment.bindList ps assignments) :=
  mapM (fun a => (a.value.bindsAll ps).map) assignments

theorem MergeSource.bindsAll (source : MergeSource) :
    BindsAll ps source.placeholders (source.bind ps) := by
  cases source with
  | table t => exact ok _
  | query q aliasName => exact (q.bindsAll ps).map

theorem MergeAction.bindsAll (action : MergeAction) :
    BindsAll ps action.placeholders (action.bind ps) := by
  cases action with
  | update assignments => exact (Assignment.bindsAll_list ps assignments).map
  | delete => exact ok _
  | insert columns values => exact (Expr.bindsAll_list ps values).map

theorem MergeClause.bindsAll (clause : MergeClause) :
    BindsAll ps clause.placeholders (clause.bind ps) :=
  (Expr.bindsAll_option ps clause.condition).bind fun _ => (clause.action.bindsAll ps).map

/-- Binding a statement fails at its first placeholder that has no
parameter, and succeeds if each has one. -/
theorem Statement.bindsAll (s : Statement) : BindsAll ps s.placeholders (s.bind ps) := by
  cases s with
  | createTable name columns =>
      exact (mapM (fun c => (Expr.bindsAll_option ps c.default).map) columns).map
  | dropTable name ifExists => exact ok _
  | select q => exact (q.bindsAll ps).map
  | insert i =>
      refine (mapM (Expr.bindsAll_list ps) i.rows).bind fun _ => .bind ?_ fun _ =>
        (Assignment.bindsAll_list ps i.assignments).map
      cases i.query with
      | none => exact ok none
      | some q => exact (q.bindsAll ps).map
  | update u =>
      exact (Assignment.bindsAll_list ps u.assignments).bind fun _ =>
        (Expr.bindsAll_option ps u.predicate).map
  | delete d => exact (Expr.bindsAll_option ps d.predicate).map
  | merge m =>
      exact (m.source.bindsAll ps).bind fun _ => (m.predicate.bindsAll ps).bind fun _ =>
        (mapM (·.bindsAll ps) m.clauses).map

-- =============================================================== parts

def SelectItem.bind (item : SelectItem) : Result SelectItem := do
  return { item with expr := ← item.expr.bind ps }

def Join.bind (join : Join) : Result Join := do
  return { join with predicate := ← Expr.bindOption ps join.predicate }

def UnionBranch.bind (branch : UnionBranch) : Result UnionBranch := do
  return { branch with select := ← branch.select.bind ps }

def SortKey.bind (key : SortKey) : Result SortKey := do
  return { key with expr := ← key.expr.bind ps }

def Cte.bind (cte : Cte) : Result Cte := do
  return { cte with body := ← cte.body.bind ps }

def Assignment.bind (a : Assignment) : Result Assignment := do
  return { a with value := ← a.value.bind ps }

/-- A function that goes through a list, and builds each item anew from
what it is bound to, is `mapM`. -/
private theorem eq_mapM {α β γ : Type} (all : List α → Result (List β)) (part : α → Result γ)
    (build : α → γ → β) (hnil : all [] = .ok [])
    (hcons : ∀ a rest, all (a :: rest) = do
      let c ← part a
      return build a c :: (← all rest))
    (items : List α) : all items = items.mapM fun a => do return build a (← part a) := by
  induction items with
  | nil => exact hnil
  | cons a rest ih => simp only [hcons, ih, List.mapM_cons, bind_assoc, pure_bind]

theorem Expr.bindList_eq (es : List Expr) : Expr.bindList ps es = es.mapM (·.bind ps) := by
  induction es with
  | nil => rfl
  | cons e es ih =>
      rw [List.mapM_cons, ← ih]
      rfl

theorem SelectItem.bindList_eq (items : List SelectItem) :
    SelectItem.bindList ps items = items.mapM (·.bind ps) :=
  eq_mapM (SelectItem.bindList ps) (·.expr.bind ps) (fun item expr => { item with expr }) rfl
    (fun ⟨_, _⟩ _ => rfl) items

theorem Join.bindList_eq (joins : List Join) : Join.bindList ps joins = joins.mapM (·.bind ps) :=
  eq_mapM (Join.bindList ps) (Expr.bindOption ps ·.predicate)
    (fun join predicate => { join with predicate }) rfl (fun ⟨_, _, _⟩ _ => rfl) joins

theorem UnionBranch.bindList_eq (branches : List UnionBranch) :
    UnionBranch.bindList ps branches = branches.mapM (·.bind ps) :=
  eq_mapM (UnionBranch.bindList ps) (·.select.bind ps)
    (fun branch select => { branch with select }) rfl (fun ⟨_, _⟩ _ => rfl) branches

theorem SortKey.bindList_eq (keys : List SortKey) :
    SortKey.bindList ps keys = keys.mapM (·.bind ps) :=
  eq_mapM (SortKey.bindList ps) (·.expr.bind ps) (fun key expr => { key with expr }) rfl
    (fun ⟨_, _⟩ _ => rfl) keys

theorem Cte.bindList_eq (ctes : List Cte) : Cte.bindList ps ctes = ctes.mapM (·.bind ps) :=
  eq_mapM (Cte.bindList ps) (·.body.bind ps) (fun cte body => { cte with body }) rfl
    (fun ⟨_, _, _, _, _⟩ _ => rfl) ctes

theorem Assignment.bindList_eq (assignments : List Assignment) :
    Assignment.bindList ps assignments = assignments.mapM (·.bind ps) := rfl

-- ============================================================= queries

/-- A function has a result for a value. -/
abbrev Gives {α β : Type} (f : α → Result β) (a : α) (b : β) : Prop :=
  f a = .ok b

theorem Expr.bindOption_eq_ok {e e' : Option Expr} :
    Expr.bindOption ps e = .ok e' ↔ Option.Rel (Gives (Expr.bind ps)) e e' := by
  cases e with
  | none => cases e' <;> simp [Expr.bindOption]
  | some e => cases e' <;> simp [Expr.bindOption, Result.map_eq_ok]

/-- A query with its placeholders bound has the parts of the query,
bound, and its tables and hints. -/
structure Select.Bound (q q' : Select) : Prop where
  ctes : List.Forall₂ (Gives (Cte.bind ps)) q.ctes q'.ctes
  distinct : q'.distinct = q.distinct
  columns : List.Forall₂ (Gives (SelectItem.bind ps)) q.columns q'.columns
  source : q'.source = q.source
  joins : List.Forall₂ (Gives (Join.bind ps)) q.joins q'.joins
  predicate : Option.Rel (Gives (Expr.bind ps)) q.predicate q'.predicate
  groupBy : List.Forall₂ (Gives (Expr.bind ps)) q.groupBy q'.groupBy
  having : Option.Rel (Gives (Expr.bind ps)) q.having q'.having
  unions : List.Forall₂ (Gives (UnionBranch.bind ps)) q.unions q'.unions
  orderBy : List.Forall₂ (Gives (SortKey.bind ps)) q.orderBy q'.orderBy
  offset : Option.Rel (Gives (Expr.bind ps)) q.offset q'.offset
  limit : Option.Rel (Gives (Expr.bind ps)) q.limit q'.limit
  queryHints : q'.queryHints = q.queryHints

theorem Select.bind_eq_ok {q q' : Select} : q.bind ps = .ok q' ↔ Select.Bound ps q q' := by
  cases q
  cases q'
  simp only [Select.bind, Cte.bindList_eq, SelectItem.bindList_eq, Join.bindList_eq,
    UnionBranch.bindList_eq, SortKey.bindList_eq, Expr.bindList_eq, Result.bind_eq_ok,
    Result.mapM_eq_ok, Expr.bindOption_eq_ok, Result.pure_eq_ok, Select.mk.injEq]
  constructor
  · rintro ⟨_, hctes, _, hcolumns, _, hjoins, _, hpredicate, _, hgroupBy, _, hhaving, _, hunions,
      _, horderBy, _, hoffset, _, hlimit, rfl, rfl, rfl, rfl, rfl, rfl, rfl, rfl, rfl, rfl, rfl,
      rfl, rfl⟩
    exact ⟨hctes, rfl, hcolumns, rfl, hjoins, hpredicate, hgroupBy, hhaving, hunions, horderBy,
      hoffset, hlimit, rfl⟩
  · rintro ⟨hctes, rfl, hcolumns, rfl, hjoins, hpredicate, hgroupBy, hhaving, hunions, horderBy,
      hoffset, hlimit, rfl⟩
    exact ⟨_, hctes, _, hcolumns, _, hjoins, _, hpredicate, _, hgroupBy, _, hhaving, _, hunions,
      _, horderBy, _, hoffset, _, hlimit, rfl, rfl, rfl, rfl, rfl, rfl, rfl, rfl, rfl, rfl, rfl,
      rfl, rfl⟩

end DialectDb
