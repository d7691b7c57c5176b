/-
Queries within other rows. Each stage of a query gives within other rows
what it gave, within those rows, as long as they agree on what the stage
looks up there: for WHERE and grouping, on the references to columns
that the FROM clause does not have. The later clauses are resolved in
the columns after grouping, so for them the agreement is a hypothesis.

Queries and expressions contain each other, so that a whole query asks
the rows around for no more than its references is one induction over
both.
-/
import DialectDb.Proofs.Grouping

namespace DialectDb

open DialectDb.Frame (AlikeOn AlikeBeyond)

variable {outer : List Frame} {rs : List Reference}

-- ======================================================= FROM and JOIN

/-- Scopes are put together alike within any rows. -/
theorem Scope.merge_within (s other : Scope) :
    (s.within outer).merge other = (·.within outer) <$> s.merge other := by
  simp only [merge, within_labels]
  split <;> rfl

/-- A scope that is put together keeps the rows around and the places of
its first part. -/
theorem Scope.merge_keeps {s other merged : Scope} (h : s.merge other = .ok merged) :
    merged.outer = s.outer ∧ merged.layout.slots = s.layout.slots := by
  unfold merge at h
  split at h
  · cases h
  · cases h
    exact ⟨rfl, rfl⟩

namespace Source

theorem first_within (context : Context) (table : Option TableRef) :
    first (context.within outer) table = (·.within outer) <$> first context table := by
  cases table with
  | none => rfl
  | some table =>
      simp only [first, map_bind]
      rfl

/-- The rows around a FROM clause are those around the query, and no
expression has a place in its rows. -/
def PlainIn (context : Context) (source : Source) : Prop :=
  source.scope.outer = context.outer ∧ source.scope.layout.slots = []

theorem first_plain {context : Context} {table : Option TableRef} {source : Source}
    (h : first context table = .ok source) : source.PlainIn context := by
  cases table with
  | none =>
      cases h
      exact ⟨rfl, rfl⟩
  | some table =>
      obtain ⟨relation, -, h⟩ := Result.bind_eq_ok.mp h
      cases h
      exact ⟨rfl, rfl⟩

theorem join_plain {context : Context} {source joined : Source} {j : Join}
    (hsource : source.PlainIn context) (h : source.join context j = .ok joined) :
    joined.PlainIn context := by
  obtain ⟨relation, -, h⟩ := Result.bind_eq_ok.mp h
  obtain ⟨scope, hmerge, h⟩ := Result.bind_eq_ok.mp h
  obtain ⟨predicate, -, h⟩ := Result.bind_eq_ok.mp h
  obtain ⟨rows, -, h⟩ := Result.bind_eq_ok.mp h
  cases h
  obtain ⟨houter, hslots⟩ := Scope.merge_keeps hmerge
  exact ⟨houter.trans hsource.1, hslots.trans hsource.2⟩

theorem ofClause_plain {context : Context} {table : Option TableRef} {joins : List Join}
    {source : Source} (h : ofClause context table joins = .ok source) :
    source.PlainIn context := by
  obtain ⟨before, hfirst, h⟩ := Result.bind_eq_ok.mp h
  exact Result.foldlM_keeps (fun j _ source joined hplain hjoin => join_plain hplain hjoin)
    (first_plain hfirst) h

theorem join_within (context : Context) (source : Source) {j : Join}
    (h : AlikeOn rs outer source.scope.outer) (hj : ∀ e ∈ j.predicate, e.columns ⊆ rs) :
    join (context.within outer) (source.within outer) j =
      (·.within outer) <$> join context source j := by
  simp only [join, map_bind]
  refine bind_congr fun relation => ?_
  simp only [within_scope, Scope.merge_within, bind_map_left]
  refine Result.bind_congr_ok fun scope hmerge => ?_
  have houter : AlikeOn rs outer scope.outer := (Scope.merge_keeps hmerge).1 ▸ h
  have hpredicate : j.predicate.mapM (scope.within outer).resolve =
      j.predicate.mapM scope.resolve := by
    cases hsome : j.predicate with
    | none => rfl
    | some e =>
        have hresolve := Scope.resolve_within_of_columns (houter.beyond _) (hj e hsome)
        simp only [Option.mapM_some, hresolve]
  rw [hpredicate]
  rfl

theorem ofClause_within {context : Context} (h : AlikeOn rs outer context.outer)
    (table : Option TableRef) {joins : List Join}
    (hjoins : ∀ j ∈ joins, ∀ e ∈ j.predicate, e.columns ⊆ rs) :
    ofClause (context.within outer) table joins =
      (·.within outer) <$> ofClause context table joins := by
  simp only [ofClause, first_within, bind_map_left, map_bind]
  refine Result.bind_congr_ok fun source hfirst => ?_
  have hplain := first_plain hfirst
  clear hfirst
  induction joins generalizing source with
  | nil => rfl
  | cons j rest ih =>
      have houter : AlikeOn rs outer source.scope.outer := hplain.1 ▸ h
      have hrest := ih fun j hj => hjoins j (List.mem_cons_of_mem _ hj)
      simp only [List.foldlM_cons, join_within context source houter (hjoins j List.mem_cons_self),
        bind_map_left, map_bind]
      exact Result.bind_congr_ok fun joined hjoin => hrest joined (join_plain hplain hjoin)

end Source

-- =============================================================== WHERE

/-- A condition refers to no other columns, with and without its
subqueries, and what becomes of these depends on nothing else of the
rows around. -/
structure Condition.RefersTo (c : Condition) (rs : List Reference) : Prop where
  columns : c.expr.columns ⊆ rs
  expand_alike : ∀ a b, AlikeOn rs a b → c.expand a = c.expand b
  expand_columns : ∀ frames e, c.expand frames = .ok e → e.columns ⊆ rs

theorem Condition.RefersTo.mono {c : Condition} {rs' : List Reference} (hc : c.RefersTo rs)
    (hsub : rs ⊆ rs') : c.RefersTo rs' where
  columns := List.Subset.trans hc.columns hsub
  expand_alike a b h := hc.expand_alike a b (h.mono hsub)
  expand_columns frames e he := List.Subset.trans (hc.expand_columns frames e he) hsub

theorem Condition.mask_within {c : Condition} (hc : c.RefersTo rs) {s : Scope}
    (h : AlikeBeyond s.layout rs outer s.outer) (rows : List Row) :
    c.mask (s.within outer) rows = c.mask s rows := by
  have hexpr := Scope.resolve_within_of_columns h hc.columns
  have hwithout : (s.within outer).resolve c.expr.withoutSubqueries =
      s.resolve c.expr.withoutSubqueries :=
    Scope.resolve_within_of_columns h
      (List.Subset.trans c.expr.columns_withoutSubqueries_subset hc.columns)
  have hrow : ∀ row, (do
      let e ← c.expand (⟨(s.within outer).layout, row⟩ :: (s.within outer).outer)
      Formula.holds (← (s.within outer).resolve e) row) = (do
      let e ← c.expand (⟨s.layout, row⟩ :: s.outer)
      Formula.holds (← s.resolve e) row) := by
    intro row
    rw [Scope.within_layout, Scope.within_outer, hc.expand_alike _ _ (h.push row)]
    refine Result.bind_congr_ok fun e he => ?_
    rw [Scope.resolve_within_of_columns h (hc.expand_columns _ e he)]
  simp only [mask, hexpr, hwithout, hrow]

theorem Condition.select_within {c : Condition} (hc : c.RefersTo rs) {source : Source}
    (h : AlikeBeyond source.scope.layout rs outer source.scope.outer) :
    c.select (source.within outer) = c.select source := by
  simp only [select, Source.within_scope, Source.within_rows, mask_within hc h,
    Scope.resolve_within_of_columns h hc.columns]

theorem Select.filtered_within {condition : Option Condition}
    (hc : ∀ c ∈ condition, c.RefersTo rs) {source : Source}
    (h : AlikeBeyond source.scope.layout rs outer source.scope.outer) :
    filtered condition (source.within outer) = (·.within outer) <$> filtered condition source := by
  cases condition with
  | none => rfl
  | some c =>
      simp only [filtered, Condition.select_within (hc c rfl) h, map_bind]
      rfl

-- ============================================================ grouping

theorem aggregateArgument_within {s : Scope} (h : AlikeBeyond s.layout rs outer s.outer)
    (name : String) {arguments : List Expr} (hrefs : ∀ e ∈ arguments, e.columns ⊆ rs) :
    aggregateArgument (s.within outer) name arguments = aggregateArgument s name arguments := by
  unfold aggregateArgument
  split
  · rfl
  · rw [Scope.resolve_within_of_columns h (hrefs _ List.mem_cons_self)]
  · rfl

theorem addKeys_within {s : Scope} (h : AlikeBeyond s.layout rs outer s.outer)
    {keys : List Expr} (hrefs : ∀ e ∈ keys, e.columns ⊆ rs) (grouped : Scope) :
    addKeys (s.within outer) keys (grouped.within outer) =
      Prod.map (·.within outer) id <$> addKeys s keys grouped := by
  induction keys generalizing grouped with
  | nil => rfl
  | cons e rest ih =>
      have hrest := ih fun e he => hrefs e (List.mem_cons_of_mem _ he)
      simp only [addKeys, Scope.resolve_within_of_columns h (hrefs e List.mem_cons_self), map_bind]
      refine bind_congr fun formula => ?_
      show addKeys (s.within outer) rest
        ((grouped.addExpression e (columnLabel s formula)).within outer) >>= _ = _
      rw [hrest, bind_map_left]
      rfl

theorem addCalls_within {s : Scope} (h : AlikeBeyond s.layout rs outer s.outer)
    {calls : List Expr} (hrefs : ∀ e ∈ calls, e.columns ⊆ rs) (grouped : Scope) :
    addCalls (s.within outer) calls (grouped.within outer) =
      Prod.map (·.within outer) id <$> addCalls s calls grouped := by
  induction calls generalizing grouped with
  | nil => rfl
  | cons e rest ih =>
      have hrest := ih fun e he => hrefs e (List.mem_cons_of_mem _ he)
      cases e with
      | call name arguments =>
          have harguments : ∀ e ∈ arguments, e.columns ⊆ rs := fun e he =>
            List.Subset.trans (Expr.columns_subset_of_mem_nodes
              (Expr.mem_nodes_of_operand he (Expr.mem_nodes_self _)))
              (hrefs _ List.mem_cons_self)
          simp only [addCalls]
          cases Aggregate.ofName? name with
          | none => exact hrest grouped
          | some function =>
              simp only [aggregateArgument_within h name harguments, map_bind]
              refine bind_congr fun argument => ?_
              show addCalls (s.within outer) rest
                ((grouped.addExpression (.call name arguments) .none).within outer) >>= _ = _
              rw [hrest, bind_map_left]
              rfl
      | _ => exact hrest grouped

/-- Grouping goes by the same formulas within rows that agree on what the
columns leave open. -/
theorem Scope.grouping_within {s : Scope} (h : AlikeBeyond s.layout rs outer s.outer)
    {keys es : List Expr} (hkeys : ∀ e ∈ keys, e.columns ⊆ rs) (hes : ∀ e ∈ es, e.columns ⊆ rs) :
    (s.within outer).grouping keys es = Prod.map (·.within outer) id <$> s.grouping keys es := by
  have hcalls : ∀ call ∈ aggregateCalls es, call.columns ⊆ rs := by
    intro call hcall
    rw [aggregateCalls, List.mem_eraseDups, List.mem_filter, List.mem_flatMap] at hcall
    obtain ⟨⟨e, he, hnode⟩, -⟩ := hcall
    exact List.Subset.trans (Expr.columns_subset_of_mem_nodes hnode) (hes e he)
  have hadded := addKeys_within h hkeys { Scope.empty with outer := s.outer }
  simp only [grouping, map_bind]
  show addKeys (s.within outer) keys (({ Scope.empty with outer := s.outer } : Scope).within outer)
    >>= _ = _
  rw [hadded, bind_map_left]
  refine bind_congr fun keys => ?_
  show addCalls (s.within outer) (aggregateCalls es) (keys.1.within outer) >>= _ = _
  rw [addCalls_within h hcalls, bind_map_left]
  rfl

theorem Source.grouped_within {source : Source}
    (h : AlikeBeyond source.scope.layout rs outer source.scope.outer) {keys es : List Expr}
    (hkeys : ∀ e ∈ keys, e.columns ⊆ rs) (hes : ∀ e ∈ es, e.columns ⊆ rs) :
    (source.within outer).grouped keys es = (·.within outer) <$> source.grouped keys es := by
  simp only [grouped, within_scope, Scope.grouping_within h hkeys hes, bind_map_left, map_bind]
  rfl

theorem Select.arranged_within {q : Select} {orderBy : List SortKey} {source : Source}
    (h : AlikeBeyond source.scope.layout rs outer source.scope.outer)
    (hkeys : ∀ e ∈ q.groupBy, e.columns ⊆ rs) (hes : ∀ e ∈ q.groupedExprs orderBy, e.columns ⊆ rs) :
    q.arranged orderBy (source.within outer) = (·.within outer) <$> q.arranged orderBy source := by
  unfold arranged
  split
  · exact Source.grouped_within h hkeys hes
  · rfl

-- ============================================== select list and ORDER BY

namespace Select

/-- The aliases of the selected expressions. -/
def aliases (q : Select) : List String :=
  (q.columns.filter (·.expr ≠ .all)).filterMap (·.aliasName)

/-- Whether a sort key is an alias, which stands for a column of the
result. -/
def isAlias (q : Select) : Expr → Bool
  | .column none name => q.aliases.any (Text.sameName · name)
  | _ => false

/-- The expressions of the select list, HAVING and ORDER BY that are
resolved in the columns of the rows. -/
def clauseExprs (q : Select) (orderBy : List SortKey) : List Expr :=
  q.columns.map (·.expr) ++ q.having.toList ++ (orderBy.map (·.expr)).filter (!q.isAlias ·)

theorem kept_within {q : Select} {source : Source}
    (h : ∀ e ∈ q.having, (source.scope.within outer).resolve e = source.scope.resolve e) :
    q.kept (source.within outer) = q.kept source := by
  unfold kept
  split
  · next having hhaving =>
      rw [Source.within_scope, h having hhaving]
      rfl
  · rfl

theorem outputColumns_within {s : Scope} {item : SelectItem} (grouping : Bool)
    (h : (s.within outer).resolve item.expr = s.resolve item.expr) :
    outputColumns (s.within outer) grouping item = outputColumns s grouping item := by
  simp only [outputColumns, h]
  rfl

/-- The columns of the result have the aliases of the selected
expressions. -/
theorem aliases_of_outputColumns {s : Scope} {grouping : Bool} {items : List SelectItem}
    {columns : List (List OutputColumn)}
    (h : items.mapM (outputColumns s grouping) = .ok columns) :
    (columns.flatten.map (·.aliasName)).filterMap id =
      (items.filter (·.expr ≠ .all)).filterMap (·.aliasName) := by
  have hall := Result.mapM_eq_ok.mp h
  clear h
  induction hall with
  | nil => rfl
  | @cons item made items columns hmade _ ih =>
      rw [List.flatten_cons, List.map_append, List.filterMap_append, ih]
      unfold outputColumns at hmade
      split at hmade
      · next hstar =>
          split at hmade
          · cases hmade
          · cases hmade
            simp [hstar]
      · next hstar =>
          obtain ⟨formula, -, hmade⟩ := Result.bind_eq_ok.mp hmade
          cases hmade
          cases haliasName : item.aliasName <;> simp [hstar, haliasName]

/-- A sort key that is no alias of a selected expression means no column
of the result by its name. -/
theorem isAlias_of_aliasPlace {q : Select} {names : List (Option String)}
    (hnames : names.filterMap id = q.aliases) {e : Expr} (h : aliasPlace? names e = none) :
    q.isAlias e = false := by
  unfold aliasPlace? at h
  split at h
  · next name =>
      simp only [isAlias, ← hnames, List.any_eq_false, List.mem_filterMap, id]
      rintro aliasName ⟨_, hmem, rfl⟩
      simpa using List.findIdx?_eq_none_iff.mp h _ hmem
  · next hcolumn =>
      unfold isAlias
      split
      · next name => exact absurd rfl (hcolumn name)
      · rfl

theorem orderPlace_within {q : Select} {s : Scope} {names : List (Option String)}
    (hnames : names.filterMap id = q.aliases) {e : Expr}
    (h : q.isAlias e = false → (s.within outer).resolve e = s.resolve e) (hidden : List Formula) :
    orderPlace (s.within outer) names e hidden = orderPlace s names e hidden := by
  unfold orderPlace
  split
  · rfl
  · rfl
  · next _ hplace => rw [h (isAlias_of_aliasPlace hnames hplace)]

theorem orderKeys_within {q : Select} {s : Scope} {names : List (Option String)}
    (hnames : names.filterMap id = q.aliases) {orderBy : List SortKey}
    (h : ∀ key ∈ orderBy, q.isAlias key.expr = false →
      (s.within outer).resolve key.expr = s.resolve key.expr) (hidden : List Formula) :
    orderKeys (s.within outer) names orderBy hidden = orderKeys s names orderBy hidden := by
  induction orderBy generalizing hidden with
  | nil => rfl
  | cons key rest ih =>
      have hrest := ih fun key hkey => h key (List.mem_cons_of_mem _ hkey)
      simp only [orderKeys, orderPlace_within hnames (h key List.mem_cons_self), hrest]

theorem mem_clauseExprs {q : Select} {orderBy : List SortKey} {e : Expr} :
    e ∈ q.clauseExprs orderBy ↔ (∃ item ∈ q.columns, item.expr = e) ∨ q.having = some e ∨
      (∃ key ∈ orderBy, key.expr = e) ∧ q.isAlias e = false := by
  simp [clauseExprs]

theorem mem_groupedExprs {q : Select} {orderBy : List SortKey} {e : Expr}
    (he : e ∈ q.clauseExprs orderBy) : e ∈ q.groupedExprs orderBy := by
  simp only [groupedExprs, List.mem_append, List.mem_map, Option.mem_toList]
  rcases mem_clauseExprs.mp he with h | h | ⟨h, -⟩
  · exact .inl (.inl h)
  · exact .inl (.inr h)
  · exact .inr h

/-- The result depends on the rows around only through what the
expressions of these clauses resolve to. -/
theorem output_within {q : Select} {orderBy : List SortKey} {source : Source}
    (h : ∀ e ∈ q.clauseExprs orderBy,
      (source.scope.within outer).resolve e = source.scope.resolve e) :
    q.output orderBy (source.within outer) = q.output orderBy source := by
  have hkept : q.kept (source.within outer) = q.kept source :=
    kept_within fun e he => h e (mem_clauseExprs.mpr (.inr (.inl he)))
  have hcolumns : q.columns.mapM (outputColumns (source.scope.within outer) (q.isGrouped orderBy)) =
      q.columns.mapM (outputColumns source.scope (q.isGrouped orderBy)) :=
    Result.mapM_congr fun item hitem =>
      outputColumns_within _ (h item.expr (mem_clauseExprs.mpr (.inl ⟨item, hitem, rfl⟩)))
  simp only [output, hkept, Source.within_scope, hcolumns]
  refine bind_congr fun rows => ?_
  refine Result.bind_congr_ok fun columns hmade => ?_
  rw [orderKeys_within (aliases_of_outputColumns hmade)]
  intro key hkey halias
  exact h key.expr (mem_clauseExprs.mpr (.inr (.inr ⟨⟨key, hkey, rfl⟩, halias⟩)))

-- ======================================================= whole queries

/-- The scope in which the select list, HAVING and ORDER BY are
resolved, given that of the FROM clause. -/
def clauseScope (q : Select) (orderBy : List SortKey) (scope : Scope) : Result Scope :=
  if q.isGrouped orderBy then Prod.fst <$> scope.grouping q.groupBy (q.groupedExprs orderBy)
  else .ok scope

theorem filtered_scope {condition : Option Condition} {source passed : Source}
    (h : filtered condition source = .ok passed) : passed.scope = source.scope := by
  unfold filtered at h
  split at h
  · obtain ⟨rows, -, h⟩ := Result.bind_eq_ok.mp h
    cases h
    rfl
  · cases h
    rfl

theorem arranged_scope {q : Select} {orderBy : List SortKey} {source arranged : Source}
    (h : q.arranged orderBy source = .ok arranged) :
    q.clauseScope orderBy source.scope = .ok arranged.scope := by
  unfold Select.arranged at h
  unfold clauseScope
  split at h
  · next hgrouped =>
      obtain ⟨⟨scope, grouping⟩, hgrouping, h⟩ := Result.bind_eq_ok.mp h
      obtain ⟨rows, -, h⟩ := Result.bind_eq_ok.mp h
      cases h
      rw [if_pos hgrouped, hgrouping]
      rfl
  · next hgrouped =>
      cases h
      rw [if_neg hgrouped]

/-- Grouped or not, the rows around stay what they are. -/
theorem clauseScope_outer {q : Select} {orderBy : List SortKey} {scope after : Scope}
    (h : q.clauseScope orderBy scope = .ok after) : after.outer = scope.outer := by
  unfold clauseScope at h
  split at h
  · obtain ⟨⟨last, grouping⟩, hgrouping, rfl⟩ := Result.map_eq_ok.mp h
    obtain ⟨-, rfl⟩ := Scope.grouping_eq_ok hgrouping
    exact Scope.addExpressions_outer _ _
  · cases h
    rfl

/-- Within other rows, the rows of a FROM clause make the same result if
the rows agree on what its columns leave open and on what the later
clauses are resolved to. -/
theorem answerFrom_within {q : Select} {condition : Option Condition} {orderBy : List SortKey}
    {source : Source} (hc : ∀ c ∈ condition, c.RefersTo rs)
    (hkeys : ∀ e ∈ q.groupBy, e.columns ⊆ rs) (hes : ∀ e ∈ q.groupedExprs orderBy, e.columns ⊆ rs)
    (hbeyond : AlikeBeyond source.scope.layout rs outer source.scope.outer)
    (hclauses : ∀ after, q.clauseScope orderBy source.scope = .ok after →
      ∀ e ∈ q.clauseExprs orderBy, (after.within outer).resolve e = after.resolve e) :
    q.answerFrom condition orderBy (source.within outer) =
      q.answerFrom condition orderBy source := by
  simp only [answerFrom, filtered_within hc hbeyond, bind_map_left]
  refine Result.bind_congr_ok fun passed hpassed => ?_
  have hscope := filtered_scope hpassed
  rw [arranged_within (hscope ▸ hbeyond) hkeys hes, bind_map_left]
  refine Result.bind_congr_ok fun arranged harranged => ?_
  exact output_within (hclauses _ (hscope ▸ arranged_scope harranged))

/-- The order in which a query's own rows are asked for: with UNION, the
sort keys are those of all rows together. -/
def ownOrder (q : Select) : List SortKey :=
  if q.unions.isEmpty then q.orderBy else []

theorem mem_plainExprs_of_key {q : Select} {e : Expr} (he : e ∈ q.groupBy) : e ∈ q.plainExprs := by
  simp [plainExprs, he]

theorem mem_plainExprs_of_grouped {q : Select} {e : Expr} (he : e ∈ q.groupedExprs q.ownOrder) :
    e ∈ q.plainExprs := by
  simp only [groupedExprs, ownOrder, List.mem_append] at he
  simp only [plainExprs, List.mem_append]
  rcases he with (he | he) | he
  · exact .inl (.inl (.inl (.inr he)))
  · exact .inl (.inr he)
  · split at he
    · exact .inr he
    · cases he

theorem coreAnswer_within {q : Select} {context : Context} {condition : Option Condition}
    (hc : ∀ c ∈ condition, c.RefersTo q.mentions) (h : AlikeOn q.mentions outer context.outer) :
    q.coreAnswer (context.within outer) condition q.ownOrder =
      q.coreAnswer context condition q.ownOrder := by
  have hjoins : ∀ j ∈ q.joins, ∀ e ∈ j.predicate, e.columns ⊆ q.mentions := by
    intro j hj e he
    refine plain_subset_mentions ?_
    simp only [plainExprs, List.mem_append, List.mem_filterMap]
    exact .inl (.inl (.inl (.inl ⟨j, hj, he⟩)))
  have hes : ∀ e ∈ q.groupedExprs q.ownOrder, e.columns ⊆ q.mentions :=
    fun e he => plain_subset_mentions (mem_plainExprs_of_grouped he)
  simp only [coreAnswer, Source.ofClause_within h _ hjoins, bind_map_left]
  refine Result.bind_congr_ok fun source hsource => ?_
  have houter : AlikeOn q.mentions outer source.scope.outer :=
    (Source.ofClause_plain hsource).1 ▸ h
  refine answerFrom_within hc (fun e he => plain_subset_mentions (mem_plainExprs_of_key he)) hes
    (houter.beyond _) fun after hafter e he => ?_
  exact Scope.resolve_within_of_columns (clauseScope_outer hafter ▸ houter.beyond _)
    (hes e (mem_groupedExprs he))

theorem answer_eq (q : Select) (context : Context) :
    q.answer context = q.assemble context (Expr.condition? context q.predicate)
      (UnionBranch.answers context q.unions) := by
  cases q
  rfl

theorem answers_isEmpty (context : Context) (unions : List UnionBranch) :
    (UnionBranch.answers context unions).isEmpty = unions.isEmpty := by
  rcases unions with _ | ⟨⟨_, _⟩, _⟩ <;> rfl

/-- A query gives the same within other rows if its own part and its
UNION branches do. -/
theorem answer_within_of_parts {q : Select} {context : Context}
    (hcore : q.coreAnswer (context.within outer) (Expr.condition? context q.predicate) q.ownOrder =
      q.coreAnswer context (Expr.condition? context q.predicate) q.ownOrder)
    (hunions : UnionBranch.answers (context.within outer) q.unions =
      UnionBranch.answers context q.unions) :
    q.answer (context.within outer) = q.answer context := by
  have hcondition : Expr.condition? (context.within outer) q.predicate =
      Expr.condition? context q.predicate := by cases q.predicate <;> rfl
  rw [answer_eq, answer_eq, hunions, hcondition]
  unfold ownOrder at hcore
  simp only [assemble, answers_isEmpty]
  split at hcore
  · next hempty => simp only [hempty, if_true, hcore]
  · next hempty => simp only [hempty, Bool.false_eq_true, if_false, hcore]

end Select

-- ========================================================== subqueries

mutual

/-- An expression with subqueries becomes the same within rows that agree
on what it refers to. -/
theorem Expr.expand_within : ∀ (e : Expr) (context : Context) {outer : List Frame},
    AlikeOn e.mentions outer context.outer → e.expand (context.within outer) = e.expand context
  | .exists q, context, _, h => by simp only [Expr.expand, Select.answer_within q context h]
  | .inQuery e q, context, _, h => by
    have hoperand := Expr.expand_within e context (h.mono (List.subset_append_left _ _))
    have hquery := Select.answer_within q context (h.mono (List.subset_append_right _ _))
    simp only [Expr.expand, hoperand, hquery]
  | .call _ arguments, context, _, h => by
    simp only [Expr.expand, Expr.expandList_within arguments context h]
  | .unary _ e, context, _, h => by simp only [Expr.expand, Expr.expand_within e context h]
  | .binary _ l r, context, _, h => by
    have hleft := Expr.expand_within l context (h.mono (List.subset_append_left _ _))
    have hright := Expr.expand_within r context (h.mono (List.subset_append_right _ _))
    simp only [Expr.expand, hleft, hright]
  | .inList e items, context, _, h => by
    have hoperand := Expr.expand_within e context (h.mono (List.subset_append_left _ _))
    have hitems := Expr.expandList_within items context (h.mono (List.subset_append_right _ _))
    simp only [Expr.expand, hoperand, hitems]
  | .all, _, _, _ => rfl
  | .column .., _, _, _ => rfl
  | .literal _, _, _, _ => rfl
  | .parameter _, _, _, _ => rfl
  | .excluded _, _, _, _ => rfl
termination_by structural e => e

theorem Expr.expandList_within : ∀ (es : List Expr) (context : Context) {outer : List Frame},
    AlikeOn (Expr.mentionsOfList es) outer context.outer →
      Expr.expandList (context.within outer) es = Expr.expandList context es
  | [], _, _, _ => rfl
  | e :: es, context, _, h => by
    have hhead := Expr.expand_within e context (h.mono (List.subset_append_left _ _))
    have htail := Expr.expandList_within es context (h.mono (List.subset_append_right _ _))
    simp only [Expr.expandList, hhead, htail]
termination_by structural es => es

theorem Expr.condition?_refersTo : ∀ (predicate : Option Expr) (context : Context),
    ∀ c ∈ Expr.condition? context predicate, c.RefersTo (Expr.mentionsOfOption predicate)
  | none, _, _, h => nomatch h
  | some e, context, c, h => by
    cases h
    refine ⟨e.columns_subset_mentions, fun a b hab => ?_, fun frames expanded hexpanded => ?_⟩
    · exact Expr.expand_within e (context.within b) hab
    · exact fun _ hr => Expr.mem_mentions (Expr.column_of_expand hexpanded (Expr.mem_columns.mp hr))
termination_by structural predicate => predicate

theorem Select.answer_within : ∀ (q : Select) (context : Context) {outer : List Frame},
    AlikeOn q.mentions outer context.outer → q.answer (context.within outer) = q.answer context
  | ⟨_, _, _, _, _, predicate, _, _, unions, _, _, _, _⟩, context, _, h => by
    have hunions := UnionBranch.answers_within unions context
      (h.mono (List.subset_append_right _ _))
    refine Select.answer_within_of_parts (Select.coreAnswer_within (fun c hc => ?_) h) hunions
    have hpredicate := Expr.condition?_refersTo predicate context c hc
    exact hpredicate.mono fun _ hr => List.mem_append_left _ (List.mem_append_left _ hr)
termination_by structural q => q

theorem UnionBranch.answers_within :
    ∀ (branches : List UnionBranch) (context : Context) {outer : List Frame},
    AlikeOn (UnionBranch.mentionsOfList branches) outer context.outer →
      UnionBranch.answers (context.within outer) branches = UnionBranch.answers context branches
  | [], _, _, _ => rfl
  | ⟨_, q⟩ :: rest, context, _, h => by
    have hhead := Select.answer_within q context (h.mono (List.subset_append_left _ _))
    have htail := UnionBranch.answers_within rest context
      (h.mono (List.subset_append_right _ _))
    simp only [UnionBranch.answers, hhead, htail]
termination_by structural branches => branches

end

end DialectDb
