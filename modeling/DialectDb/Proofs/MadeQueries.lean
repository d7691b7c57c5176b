/-
Readers make well-formed queries. A core (`core`) is a query up to HAVING
and can stand behind UNION as it is; all that is put around it comes from
readers of its own. A predicate is read behind each join but CROSS JOIN,
and the body of a named query is turned away if it has named queries.
-/
import DialectDb.Grammar.Query
import DialectDb.Proofs.MadeExpressions

namespace DialectDb.Grammar

open DialectDb.Parser

variable {g : Grammar} {upsert : Bool}

-- =============================================================== names

theorem moves_tableName : Moves upsert tableName := by
  refine moves_identifier.then fun name => makes_iterate (fun _ _ => ?_) trivial
  refine moves_accept.then fun _ => .ite (fun _ => ?_) fun _ => makes_none
  exact moves_identifier.some

theorem moves_aliasName : Moves upsert aliasName? := by
  have hname : Moves upsert (some <$> identifier) := moves_identifier.map fun _ => id
  refine moves_accept.then fun _ => .ite (fun _ => hname) fun _ => moves_peek.then fun token => ?_
  split
  · exact hname
  · exact makes_pure trivial

-- =============================================================== hints

theorem moves_tableHint : Moves upsert tableHint := by
  refine moves_next.then fun token => ?_
  split
  case h_3 => exact makes_fault_bind
  all_goals
    refine (makes_pure (p := fun _ => True) trivial).then fun name => ?_
    refine moves_accept.then fun _ => .ite (fun _ => ?_) fun _ => ?_
    · exact moves_identifier.then fun _ => makes_pure trivial
    · refine moves_peek.then fun _ => .ite (fun _ => ?_) fun _ => makes_pure trivial
      exact moves_identifierList.then fun _ => makes_pure trivial

theorem moves_indexScope : Moves upsert indexScope? := by
  refine (makes_clause (p := fun _ => True) (moves_next.then fun token => ?_)).moves
  split
  · exact makes_pure trivial
  · exact moves_expect.then fun _ => makes_pure trivial
  · exact moves_expect.then fun _ => makes_pure trivial
  · exact makes_fault

theorem moves_indexName : Moves upsert indexName := by
  refine moves_next.then fun token => ?_
  split
  · exact makes_pure trivial
  · exact makes_pure trivial
  · exact makes_fault

theorem moves_indexNames : Moves upsert indexNames := by
  refine makes_iterate (fun names _ => ?_) trivial
  refine moves_accept.then fun _ => .ite (fun _ => makes_none) fun _ => ?_
  exact .when moves_expect (moves_indexName.then fun _ => makes_some trivial)

theorem moves_indexHint : Moves upsert indexHint := by
  refine moves_next.then fun token => ?_
  split
  case h_4 => exact makes_fault_bind
  all_goals
    refine (makes_pure (p := fun _ => True) trivial).then fun action => ?_
    refine moves_next.then fun token => ?_
    split
    case h_3 => exact makes_fault_bind
    all_goals
      refine moves_indexScope.then fun scope => moves_expect.then fun _ => ?_
      exact moves_indexNames.then fun _ => makes_pure trivial

theorem moves_tableHints : Moves upsert tableHints := by
  have hlist : ∀ hints : List TableHint, Makes upsert (do
      pure (some (hints ++ (← parenthesized (commaList tableHint))))) (IfSome fun _ => True) :=
    fun _ => (makes_parenthesized (makes_commaList moves_tableHint)).then fun _ => makes_some trivial
  have hindex : ∀ hints : List TableHint, Makes upsert (do
      require (spellsHints .index) .indexHints
      pure (some (hints ++ [← indexHint]))) (IfSome fun _ => True) :=
    fun _ => moves_require.then fun _ => moves_indexHint.then fun _ => makes_some trivial
  refine makes_iterate (fun hints _ => moves_peek.then fun token => ?_) trivial
  split
  · exact moves_require.then fun _ => moves_next.then fun _ => hlist hints
  · exact moves_require.then fun _ => hlist hints
  · exact hindex hints
  · exact hindex hints
  · exact hindex hints
  · exact makes_none

theorem moves_queryHintWords : Moves upsert queryHintWords := by
  refine makes_iterate (fun state _ => ?_) trivial
  obtain ⟨hints, words⟩ := state
  refine moves_next.then fun token => ?_
  split
  · exact makes_none
  · exact makes_some trivial
  · exact makes_some trivial

theorem moves_queryHints : Moves upsert queryHints := by
  refine (makes_clause (p := fun _ => True) ?_).then fun hints? => makes_pure trivial
  refine moves_require.then fun _ => moves_expect.then fun _ => ?_
  refine moves_queryHintWords.then fun words => ?_
  exact .ite (fun _ => makes_fault) fun _ => makes_pure trivial

-- ============================================================== tables

theorem moves_tableRef : Moves upsert tableRef := by
  refine moves_tableName.then fun name => moves_aliasName.then fun aliasName => ?_
  exact moves_tableHints.then fun hints => makes_pure trivial

theorem moves_joinKind : Moves upsert joinKind? := by
  have hjoin : ∀ kind : JoinKind, Moves upsert (do
      expect Keyword.JOIN
      pure (some kind)) :=
    fun _ => moves_expect.then fun _ => makes_pure trivial
  refine moves_accept.then fun _ => .ite (fun _ => makes_pure trivial) fun _ => ?_
  refine moves_accept.then fun _ => .ite (fun _ => makes_pure trivial) fun _ => ?_
  refine moves_accept.then fun _ => .ite (fun _ => hjoin .cross) fun _ => ?_
  refine moves_accept.then fun _ => .ite (fun _ => hjoin .inner) fun _ => ?_
  refine moves_accept.then fun _ => .ite (fun _ => ?_) fun _ => ?_
  · exact moves_skipOver.then fun _ => hjoin .left
  refine moves_accept.then fun _ => .ite (fun _ => ?_) fun _ => makes_pure trivial
  exact moves_skipOver.then fun _ => hjoin .right

section
variable (hg : MakesWellFormed g)
include hg

theorem makes_join : Makes upsert (join? g) (IfSome (Join.WellFormed upsert)) := by
  refine moves_joinKind.then fun kind => ?_
  split
  · exact makes_none
  refine moves_tableRef.then fun table => .ite (fun hcross => ?_) fun hcross => ?_
  · exact makes_some ⟨iff_of_true rfl hcross, trivial⟩
  · refine moves_expect.then fun _ => (hg.expression upsert 0).bind fun e he => ?_
    exact makes_some ⟨iff_of_false (Option.some_ne_none e) hcross, he⟩

theorem makes_joins :
    Makes upsert (joins g) fun joins => ∀ join ∈ joins, join.WellFormed upsert := by
  refine makes_iterate (fun joins hjoins => ?_) (List.forall_mem_nil _)
  refine (makes_join hg).bind fun join? hjoin => makes_pure fun _ hmem => ?_
  obtain ⟨join, hsome, rfl⟩ := Option.map_eq_some_iff.mp hmem
  exact forall_mem_concat hjoins (hjoin join hsome)

-- ============================================================= clauses

theorem makes_whereClause : Makes upsert (whereClause g) (IfSome (Expr.WellFormed upsert)) :=
  makes_clause (hg.expression upsert 0)

theorem makes_topClause : Makes upsert (topClause g) (IfSome (Expr.WellFormed upsert)) :=
  makes_clause (moves_require.then fun _ => makes_operand hg)

theorem makes_selectItem :
    Makes upsert (selectItem g) fun item => item.expr.WellFormed upsert := by
  refine (hg.expression upsert 0).bind fun e he => .ite (fun _ => makes_pure he) fun _ => ?_
  exact moves_aliasName.then fun _ => makes_pure he

theorem makes_groupByClause :
    Makes upsert (groupByClause g) fun keys => ∀ e ∈ keys, e.WellFormed upsert :=
  makes_clauseItems (moves_expect.then fun _ => makes_commaList (hg.expression upsert 0))

theorem makes_sortKey : Makes upsert (sortKey g) fun key => key.expr.WellFormed upsert :=
  (hg.expression upsert 0).bind fun _ he => moves_nextMap.then fun _ => makes_pure he

theorem makes_orderByClause :
    Makes upsert (orderByClause g) fun keys => ∀ key ∈ keys, key.expr.WellFormed upsert :=
  makes_clauseItems (moves_expect.then fun _ => makes_commaList (makes_sortKey hg))

theorem makes_fromClause :
    Makes upsert (clause? .FROM do
      let source ← tableRef
      pure (source, ← joins g))
      (IfSome fun tables => ∀ join ∈ tables.2, join.WellFormed upsert) :=
  makes_clause (moves_tableRef.then fun _ => (makes_joins hg).bind fun _ hjoins => makes_pure hjoins)

theorem makes_core :
    Makes upsert (core g) fun q => q.IsBranch ∧ q.PartsWellFormed upsert := by
  refine moves_expect.then fun _ => (makes_topClause hg).bind fun early hearly => ?_
  refine moves_accept.then fun distinct => .when moves_skipOver ?_
  dsimp only
  refine .choose (makes_pure hearly) (makes_topClause hg) fun limit hlimit => ?_
  refine (makes_commaList (makes_selectItem hg)).bind fun columns hcolumns => ?_
  refine (makes_fromClause hg).bind fun tables htables => ?_
  refine (makes_whereClause hg).bind fun predicate hpredicate => ?_
  refine (makes_groupByClause hg).bind fun groupBy hgroupBy => ?_
  refine (makes_clause (hg.expression upsert 0)).bind fun having hhaving => makes_pure ?_
  refine ⟨⟨rfl, rfl, rfl, rfl, rfl⟩, ?_⟩
  exact {
    ctes := List.forall_mem_nil _
    columns := hcolumns
    joins := by
      cases tables with
      | none => exact List.forall_mem_nil _
      | some tables => exact htables tables rfl
    predicate := hpredicate
    groupBy := hgroupBy
    having := hhaving
    unions := List.forall_mem_nil _
    orderBy := List.forall_mem_nil _
    offset := nofun
    limit := hlimit }

-- ============================================================== paging

/-- Paging by well-formed counts. -/
structure PagingWellFormed (upsert : Bool) (paging : Paging) : Prop where
  offset : ∀ e ∈ paging.offset, e.WellFormed upsert
  limit : ∀ e ∈ paging.limit, e.WellFormed upsert

omit hg in
/-- The rest of FETCH behind the count. -/
private theorem makes_rowsOnly {count : Expr} (h : count.WellFormed upsert) :
    Makes upsert (do
      match ← next with
      | .keyword .ROW | .keyword .ROWS => pure ()
      | found => fault (.expected "ROW or ROWS" found)
      expect Keyword.ONLY
      pure count) (Expr.WellFormed upsert) := by
  refine moves_next.then fun token => ?_
  split
  case h_3 => exact makes_fault_bind
  all_goals exact moves_expect.then fun _ => makes_pure h

theorem makes_fetchCount : Makes upsert (fetchCount g) (Expr.WellFormed upsert) := by
  have hone : (Expr.literal (.integer 1)).WellFormed upsert := trivial
  refine moves_next.then fun token => ?_
  split
  case h_3 => exact makes_fault_bind
  all_goals
    refine moves_peek.then fun token => ?_
    split
    · exact (makes_pure hone).bind fun _ => makes_rowsOnly
    · exact (makes_pure hone).bind fun _ => makes_rowsOnly
    · exact (hg.expression upsert 0).bind fun _ => makes_rowsOnly

theorem makes_limitPaging : Makes upsert (limitPaging g) (PagingWellFormed upsert) := by
  refine moves_require.then fun _ => (hg.expression upsert 0).bind fun first hfirst => ?_
  refine moves_accept.then fun _ => .ite (fun _ => ?_) fun _ => ?_
  · refine (hg.expression upsert 0).bind fun limit hlimit => makes_pure ?_
    exact ⟨ifSome_some hfirst, ifSome_some hlimit⟩
  · refine (makes_clause (hg.expression upsert 0)).bind fun offset hoffset => makes_pure ?_
    exact ⟨hoffset, ifSome_some hfirst⟩

theorem makes_offsetPaging (ordered : Bool) :
    Makes upsert (offsetPaging g ordered) (PagingWellFormed upsert) := by
  refine (hg.expression upsert 0).bind fun offset hoffset => moves_accept.then fun row => ?_
  refine .choose (p := fun _ => True) (makes_pure trivial) moves_accept fun rows _ => ?_
  refine .ite (fun _ => ?_) fun _ => ?_
  · refine moves_require.then fun _ => (makes_clause (makes_fetchCount hg)).bind fun limit hlimit => ?_
    refine makes_read fun around _ => .ite (fun _ => makes_throw_bind) fun _ => makes_pure ?_
    exact ⟨ifSome_some hoffset, hlimit⟩
  · refine moves_require.then fun _ => ?_
    refine (makes_clause (hg.expression upsert 0)).bind fun limit hlimit => makes_pure ?_
    exact ⟨ifSome_some hoffset, hlimit⟩

theorem makes_fetchPaging : Makes upsert (fetchPaging g) (PagingWellFormed upsert) := by
  refine moves_require.then fun _ => (makes_fetchCount hg).bind fun limit hlimit => makes_pure ?_
  exact ⟨nofun, ifSome_some hlimit⟩

theorem makes_paging (ordered : Bool) :
    Makes upsert (paging? g ordered) (IfSome (PagingWellFormed upsert)) := by
  refine (makes_nextMap (p := fun paging => Makes upsert paging (PagingWellFormed upsert))
    fun t paging h => ?_).bind fun paging? hpaging => ?_
  · split at h
    · cases h
      exact makes_limitPaging hg
    · cases h
      exact makes_offsetPaging hg ordered
    · cases h
      exact makes_fetchPaging hg
    · cases h
  · split
    · next paging => exact (hpaging paging rfl).some
    · exact makes_none

-- ================================================================ WITH

omit hg in
theorem moves_materialization : Moves upsert materialization? := by
  have hhint : Moves upsert materializedHint? := by
    refine moves_accept.then fun _ => .ite (fun _ => makes_pure trivial) fun _ => ?_
    refine moves_accept.then fun _ => .ite (fun _ => ?_) fun _ => makes_pure trivial
    exact moves_expect.then fun _ => makes_pure trivial
  exact hhint.then fun hint => .when moves_require (makes_pure trivial)

theorem makes_cte (recursive : Bool) : Makes upsert (cte g recursive) (Cte.WellFormed upsert) := by
  have hbody : ∀ name : String, Makes upsert (do
      let body ← g.select
      if body.ctes.isEmpty then pure body else fault (.nestedWith name))
      fun q => q.ctes = [] ∧ q.WellFormed upsert :=
    fun _ => (hg.select upsert).bind fun _ hq =>
      .ite (fun hempty => makes_pure ⟨List.isEmpty_iff.mp hempty, hq⟩) fun _ => makes_fault
  refine moves_identifier.then fun name => moves_peek.then fun token => ?_
  refine .choose (p := fun _ => True) moves_identifierList (makes_pure trivial) fun columns _ => ?_
  refine moves_expect.then fun _ => moves_materialization.then fun materialized => ?_
  exact (makes_parenthesized (hbody name)).bind fun body hbody => makes_pure hbody

theorem makes_withClause :
    Makes upsert (withClause g) fun ctes => ∀ cte ∈ ctes, cte.WellFormed upsert := by
  refine makes_clauseItems (moves_require.then fun _ => moves_accept.then fun recursive => ?_)
  exact .when moves_require (makes_commaList (makes_cte hg recursive))

-- ============================================================= queries

theorem makes_unions :
    Makes upsert (unions g) fun branches => ∀ branch ∈ branches, branch.WellFormed upsert := by
  refine makes_iterate (fun branches hbranches => ?_) (List.forall_mem_nil _)
  refine moves_accept.then fun _ => .ite (fun _ => ?_) fun _ => makes_none
  refine moves_accept.then fun all => (makes_core hg).bind fun q hq => ?_
  exact makes_some (forall_mem_concat hbranches ⟨hq.1, (Select.wellFormed_iff q).mpr hq.2⟩)

theorem makes_selectWith (upsert : Bool) :
    Makes upsert (selectWith g) (Select.WellFormed upsert) := by
  refine (makes_withClause hg).bind fun ctes hctes => (makes_core hg).bind fun first hfirst => ?_
  refine (makes_unions hg).bind fun unions hunions => ?_
  refine (makes_orderByClause hg).bind fun orderBy horderBy => ?_
  dsimp only
  have hend : ∀ q : Select, q.PartsWellFormed upsert →
      Makes upsert (do pure { q with queryHints := ← queryHints }) (Select.WellFormed upsert) := by
    intro q hparts
    refine moves_queryHints.then fun hints => makes_pure ?_
    exact (Select.wellFormed_iff _).mpr { hparts with }
  have hparts := { hfirst.2 with ctes := hctes, unions := hunions, orderBy := horderBy :
    Select.PartsWellFormed upsert { first with ctes := ctes, unions := unions, orderBy := orderBy } }
  refine (makes_paging hg _).bind fun paging? hpaging => ?_
  cases paging? with
  | none => exact (makes_pure hparts).bind hend
  | some paging =>
      have hcounts := hpaging paging rfl
      refine .ite (fun _ => makes_throw_bind) fun _ => (makes_pure ?_).bind hend
      exact { hparts with offset := hcounts.offset, limit := hcounts.limit }

end

/-- Whatever its depth, a grammar makes well-formed expressions and
queries. -/
theorem makesWellFormed_ofDepth (depth : Nat) : MakesWellFormed (ofDepth depth) := by
  induction depth with
  | zero => exact ⟨fun _ _ => makes_ending, fun _ => makes_ending⟩
  | succ depth ih => exact ⟨makes_expressionWith ih, makes_selectWith ih⟩

end DialectDb.Grammar
