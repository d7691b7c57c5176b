/-
Queries use only what the dialect version has. Each construct that some
versions lack is read behind a `require`, and what is required there is
what is known of the query from then on. Paging is where it matters which
spelling was read: they give the same tree, and each is required to
exist by itself.
-/
import DialectDb.Grammar.Query
import DialectDb.Proofs.GatedExpressions

namespace DialectDb.Grammar

open DialectDb.Parser

variable {v w : DialectVersion} {g : Grammar}

-- =============================================================== names

theorem gated_tableName : Gated v w tableName fun _ => True := by
  refine gated_identifier.then fun name => gated_iterate (fun _ _ => ?_) trivial
  refine gated_accept.then fun _ => .ite (fun _ => ?_) fun _ => gated_none
  exact gated_identifier.some

theorem gated_aliasName : Gated v w aliasName? fun _ => True := by
  have hname : Gated v w (some <$> identifier) fun _ => True :=
    gated_identifier.map fun _ _ => trivial
  refine gated_accept.then fun _ => .ite (fun _ => hname) fun _ => gated_peek.then fun token => ?_
  split
  · exact hname
  · exact gated_pure trivial

-- =============================================================== hints

theorem spellsHints_iff {style : HintStyle} :
    spellsHints style v = true ↔ v.dialect.hints = style :=
  decide_eq_true_iff

/-- Hints are only read where the version spells them in this way. -/
theorem gated_spellsHints (hw : w.Covers v) {style : HintStyle} {feature : Feature}
    (hstyle : style ≠ .none) :
    Gated v w (require (spellsHints style) feature) fun _ => v.dialect.hints = style := by
  refine (gated_require fun h => ?_).imp fun _ => spellsHints_iff.mp
  rw [spellsHints_iff] at h ⊢
  rw [hw.hints (h ▸ hstyle), h]

theorem gated_tableHint : Gated v w tableHint fun hint => hint.style = .table := by
  refine gated_next.then fun token => ?_
  split
  case h_3 => exact gated_fault_bind
  all_goals
    refine (gated_pure (p := fun _ => True) trivial).then fun name => ?_
    refine gated_accept.then fun _ => .ite (fun _ => ?_) fun _ => ?_
    · exact gated_identifier.then fun _ => gated_pure rfl
    · refine gated_peek.then fun _ => .ite (fun _ => ?_) fun _ => gated_pure rfl
      exact gated_identifierList.then fun _ => gated_pure rfl

theorem gated_indexScope : Gated v w indexScope? fun _ => True := by
  refine Gated.imp (p := IfSome fun _ => True) (gated_clause (gated_next.then fun token => ?_))
    fun _ _ => trivial
  split
  · exact gated_pure trivial
  · exact gated_expect.then fun _ => gated_pure trivial
  · exact gated_expect.then fun _ => gated_pure trivial
  · exact gated_fault

theorem gated_indexName : Gated v w indexName fun _ => True := by
  refine gated_next.then fun token => ?_
  split
  · exact gated_pure trivial
  · exact gated_pure trivial
  · exact gated_fault

theorem gated_indexNames : Gated v w indexNames fun _ => True := by
  refine gated_iterate (fun names _ => ?_) trivial
  refine gated_accept.then fun _ => .ite (fun _ => gated_none) fun _ => ?_
  exact .when gated_expect (gated_indexName.then fun _ => gated_pure fun _ _ => trivial)

theorem gated_indexHint : Gated v w indexHint fun hint => hint.style = .index := by
  refine gated_next.then fun token => ?_
  split
  case h_4 => exact gated_fault_bind
  all_goals
    refine (gated_pure (p := fun _ => True) trivial).then fun action => ?_
    refine gated_next.then fun token => ?_
    split
    case h_3 => exact gated_fault_bind
    all_goals
      refine gated_indexScope.then fun scope => gated_expect.then fun _ => ?_
      exact gated_indexNames.then fun _ => gated_pure rfl

variable (hw : w.Covers v)
include hw

theorem gated_tableHints :
    Gated v w tableHints fun hints => ∀ hint ∈ hints, v.dialect.hints = hint.style := by
  have hlist : ∀ hints : List TableHint, (∀ hint ∈ hints, v.dialect.hints = hint.style) →
      v.dialect.hints = .table →
      Gated v w (do pure (some (hints ++ (← parenthesized (commaList tableHint)))))
        (IfSome fun hints => ∀ hint ∈ hints, v.dialect.hints = hint.style) := by
    intro hints hhints hstyle
    refine (gated_parenthesized (gated_commaList gated_tableHint)).bind fun news hnews => ?_
    refine gated_some (List.forall_mem_append.mpr ⟨hhints, fun new hnew => ?_⟩)
    exact hstyle.trans (hnews new hnew).symm
  have hindex : ∀ hints : List TableHint, (∀ hint ∈ hints, v.dialect.hints = hint.style) →
      Gated v w (do
          require (spellsHints .index) .indexHints
          pure (some (hints ++ [← indexHint])))
        (IfSome fun hints => ∀ hint ∈ hints, v.dialect.hints = hint.style) := by
    intro hints hhints
    refine (gated_spellsHints hw (by decide)).bind fun _ hstyle => ?_
    refine gated_indexHint.bind fun new hnew => ?_
    exact gated_some (forall_mem_concat hhints (hstyle.trans hnew.symm))
  refine gated_iterate (fun hints hhints => gated_peek.then fun token => ?_)
    (List.forall_mem_nil _)
  split
  · refine (gated_spellsHints hw (by decide)).bind fun _ hstyle => ?_
    exact gated_next.then fun _ => hlist hints hhints hstyle
  · refine (gated_spellsHints hw (by decide)).bind fun _ hstyle => ?_
    exact hlist hints hhints hstyle
  · exact hindex hints hhints
  · exact hindex hints hhints
  · exact hindex hints hhints
  · exact gated_none

omit hw in
theorem gated_queryHintWords : Gated v w queryHintWords fun _ => True := by
  refine gated_iterate (fun state _ => ?_) trivial
  obtain ⟨hints, words⟩ := state
  refine gated_next.then fun token => ?_
  split
  · exact gated_none
  · exact gated_some trivial
  · exact gated_some trivial

theorem gated_queryHints :
    Gated v w queryHints fun hints => hints ≠ [] → v.dialect.hints = .table := by
  refine (gated_clause (p := fun _ => v.dialect.hints = .table) ?_).bind fun hints? hhints =>
    gated_pure ?_
  · refine (gated_spellsHints hw (by decide)).bind fun _ hstyle => ?_
    refine gated_expect.then fun _ => gated_queryHintWords.then fun words => ?_
    exact .ite (fun _ => gated_fault) fun _ => gated_pure hstyle
  · cases hints? with
    | none => exact fun h => absurd rfl h
    | some hints => exact fun _ => hhints hints rfl

-- ============================================================== tables

theorem gated_tableRef : Gated v w tableRef (TableRef.UsesOnly v) := by
  refine gated_tableName.then fun name => gated_aliasName.then fun aliasName => ?_
  exact (gated_tableHints hw).bind fun hints hhints => gated_pure hhints

omit hw in
theorem gated_joinKind : Gated v w joinKind? fun _ => True := by
  have hjoin : ∀ kind : JoinKind, Gated v w (do
      expect Keyword.JOIN
      pure (some kind)) fun _ => True :=
    fun _ => gated_expect.then fun _ => gated_pure trivial
  refine gated_accept.then fun _ => .ite (fun _ => gated_pure trivial) fun _ => ?_
  refine gated_accept.then fun _ => .ite (fun _ => gated_pure trivial) fun _ => ?_
  refine gated_accept.then fun _ => .ite (fun _ => hjoin .cross) fun _ => ?_
  refine gated_accept.then fun _ => .ite (fun _ => hjoin .inner) fun _ => ?_
  refine gated_accept.then fun _ => .ite (fun _ => ?_) fun _ => ?_
  · exact gated_skipOver.then fun _ => hjoin .left
  refine gated_accept.then fun _ => .ite (fun _ => ?_) fun _ => gated_pure trivial
  exact gated_skipOver.then fun _ => hjoin .right

/-- A join that uses only what the dialect version has. -/
structure JoinWithin (v : DialectVersion) (join : Join) : Prop where
  table : join.table.UsesOnly v
  predicate : ∀ e ∈ join.predicate, e.Within v

variable (hg : IsGated v w g)
include hg

theorem gated_join : Gated v w (join? g) (IfSome (JoinWithin v)) := by
  refine gated_joinKind.then fun kind => ?_
  split
  · exact gated_none
  refine (gated_tableRef hw).bind fun table htable => .ite (fun _ => ?_) fun _ => ?_
  · exact gated_some ⟨htable, nofun⟩
  · refine gated_expect.then fun _ => (hg.expression 0).bind fun e he => ?_
    exact gated_some ⟨htable, ifSome_some he⟩

theorem gated_joins : Gated v w (joins g) fun joins => ∀ join ∈ joins, JoinWithin v join := by
  refine gated_iterate (fun joins hjoins => ?_) (List.forall_mem_nil _)
  refine (gated_join hw hg).bind fun join? hjoin => gated_pure fun _ hmem => ?_
  obtain ⟨join, hsome, rfl⟩ := Option.map_eq_some_iff.mp hmem
  exact forall_mem_concat hjoins (hjoin join hsome)

-- ============================================================= clauses

omit hw in
theorem gated_whereClause : Gated v w (whereClause g) (IfSome (Expr.Within v)) :=
  gated_clause (hg.expression 0)

/-- A limit after SELECT. -/
theorem gated_topClause :
    Gated v w (topClause g) (IfSome fun e => e.Within v ∧ v.dialect.top = true) := by
  refine gated_clause ((gated_require hw.top).bind fun _ htop => ?_)
  exact (gated_operand hg).imp fun _ he => ⟨he, htop⟩

omit hw in
theorem gated_selectItem : Gated v w (selectItem g) fun item => item.expr.Within v := by
  refine (hg.expression 0).bind fun e he => .ite (fun _ => gated_pure he) fun _ => ?_
  exact gated_aliasName.then fun _ => gated_pure he

omit hw in
theorem gated_groupByClause : Gated v w (groupByClause g) fun keys => ∀ e ∈ keys, e.Within v :=
  gated_clauseItems (gated_expect.then fun _ => gated_commaList (hg.expression 0))

omit hw in
theorem gated_sortKey : Gated v w (sortKey g) fun key => key.expr.Within v := by
  refine (hg.expression 0).bind fun e he => ?_
  exact (gated_nextMap (p := fun _ => True) fun _ _ _ => trivial).then fun _ => gated_pure he

omit hw in
theorem gated_orderByClause :
    Gated v w (orderByClause g) fun keys => ∀ key ∈ keys, key.expr.Within v :=
  gated_clauseItems (gated_expect.then fun _ => gated_commaList (gated_sortKey hg))

/-- The tables of FROM, and what they are joined on. -/
def FromWithin (v : DialectVersion) (tables : TableRef × List Join) : Prop :=
  tables.1.UsesOnly v ∧ ∀ join ∈ tables.2, JoinWithin v join

theorem gated_fromClause :
    Gated v w (clause? .FROM do
      let source ← tableRef
      pure (source, ← joins g)) (IfSome (FromWithin v)) := by
  refine gated_clause ((gated_tableRef hw).bind fun source hsource => ?_)
  exact (gated_joins hw hg).bind fun joins hjoins => gated_pure ⟨hsource, hjoins⟩

/-- A query as it is before ORDER BY and paging: its limit can only be
one after SELECT, and it has no offset yet. -/
structure CoreWithin (v : DialectVersion) (q : Select) : Prop where
  parts : q.PartsWithin v
  ctes : q.ctes = []
  tables : ∀ t ∈ q.tables, t.UsesOnly v
  queryHints : q.queryHints = []
  offset : q.offset = none
  limit : q.limit ≠ none → v.dialect.top = true

omit hw hg in
theorem CoreWithin.usesOnly {q : Select} (h : CoreWithin v q) : q.UsesOnly v := by
  constructor
  case ctes =>
    rw [h.ctes]
    exact List.forall_mem_nil _
  case tables => exact h.tables
  case queryHints => exact fun hne => absurd h.queryHints hne
  case offset => exact fun hne => absurd h.offset hne
  case limit => exact fun hne => .inr (.inl (h.limit hne))
  case ordered => exact fun _ _ hne => absurd h.offset hne

omit hw hg in
theorem CoreWithin.within {q : Select} (h : CoreWithin v q) : q.Within v :=
  Select.within_of_parts h.usesOnly h.parts

theorem gated_core : Gated v w (core g) (CoreWithin v) := by
  refine gated_expect.then fun _ => ?_
  refine (gated_topClause hw hg).bind fun early hearly => ?_
  refine gated_accept.then fun distinct => .when gated_skipOver ?_
  dsimp only
  -- Whether it stands before or after DISTINCT, TOP was required.
  refine .choose (gated_pure hearly) (gated_topClause hw hg) fun limit hlimit => ?_
  refine (gated_commaList (gated_selectItem hg)).bind fun columns hcolumns => ?_
  refine (gated_fromClause hw hg).bind fun tables htables => ?_
  refine (gated_whereClause hg).bind fun predicate hpredicate => ?_
  refine (gated_groupByClause hg).bind fun groupBy hgroupBy => ?_
  refine (gated_clause (hg.expression 0)).bind fun having hhaving => gated_pure ?_
  have hjoins : ∀ join ∈ (tables.map Prod.snd).getD [], JoinWithin v join := by
    cases tables with
    | none => exact List.forall_mem_nil _
    | some tables => exact (htables tables rfl).2
  constructor
  case parts =>
    exact {
      ctes := List.forall_mem_nil _
      columns := hcolumns
      joins := fun join hjoin => (hjoins join hjoin).predicate
      predicate := hpredicate
      groupBy := hgroupBy
      having := hhaving
      unions := List.forall_mem_nil _
      orderBy := List.forall_mem_nil _
      offset := nofun
      limit := fun e he => (hlimit e he).1 }
  case ctes => rfl
  case tables =>
    refine List.forall_mem_append.mpr ⟨?_, List.forall_mem_map.mpr fun join hjoin => ?_⟩
    · intro t ht
      obtain ⟨⟨_, joins⟩, hsome, rfl⟩ := Option.map_eq_some_iff.mp (Option.mem_toList.mp ht)
      exact (htables _ hsome).1
    · exact (hjoins join hjoin).table
  case queryHints => rfl
  case offset => rfl
  case limit =>
    intro hne
    obtain ⟨e, he⟩ := Option.ne_none_iff_exists'.mp hne
    exact (hlimit e he).2

-- ============================================================== paging

/-- Paging in a spelling that the dialect version has, for a query that
is ordered or not. -/
structure PagingWithin (v : DialectVersion) (ordered : Bool) (paging : Paging) : Prop where
  offsetWithin : ∀ e ∈ paging.offset, e.Within v
  limitWithin : ∀ e ∈ paging.limit, e.Within v
  offset : paging.offset ≠ none → v.dialect.limitOffset = true ∨ v.supportsPaging = true
  limit : paging.limit ≠ none →
    v.dialect.limitOffset = true ∨ v.supportsFetchFirst = true ∨
      (paging.offset ≠ none ∧ v.supportsPaging = true)
  ordered : v.dialect.pagingRequiresOrderBy = true → v.dialect.limitOffset = false →
    paging.offset ≠ none → ordered = true

omit hw hg in
/-- Where there is LIMIT, paging is not restricted further. -/
theorem pagingWithin_of_limitOffset {ordered : Bool} {paging : Paging}
    (h : v.dialect.limitOffset = true) (hoffset : ∀ e ∈ paging.offset, e.Within v)
    (hlimit : ∀ e ∈ paging.limit, e.Within v) : PagingWithin v ordered paging :=
  ⟨hoffset, hlimit, fun _ => .inl h, fun _ => .inl h, fun _ hnot => by simp [h] at hnot⟩

omit hw hg in
/-- The rest of FETCH behind the count. -/
private theorem gated_rowsOnly {count : Expr} (h : count.Within v) :
    Gated v w (do
      match ← next with
      | .keyword .ROW | .keyword .ROWS => pure ()
      | found => fault (.expected "ROW or ROWS" found)
      expect Keyword.ONLY
      pure count) (Expr.Within v) := by
  refine gated_next.then fun token => ?_
  split
  case h_3 => exact gated_fault_bind
  all_goals exact gated_expect.then fun _ => gated_pure h

omit hw in
theorem gated_fetchCount : Gated v w (fetchCount g) (Expr.Within v) := by
  refine gated_next.then fun token => ?_
  split
  case h_3 => exact gated_fault_bind
  all_goals
    refine gated_peek.then fun token => ?_
    split
    · exact (gated_pure (Expr.within_of_nil rfl)).bind fun _ => gated_rowsOnly
    · exact (gated_pure (Expr.within_of_nil rfl)).bind fun _ => gated_rowsOnly
    · exact (hg.expression 0).bind fun _ => gated_rowsOnly

theorem gated_limitPaging (ordered : Bool) :
    Gated v w (limitPaging g) (PagingWithin v ordered) := by
  refine (gated_require hw.limitOffset).bind fun _ hlimitOffset => ?_
  refine (hg.expression 0).bind fun first hfirst => ?_
  refine gated_accept.then fun _ => .ite (fun _ => ?_) fun _ => ?_
  · refine (hg.expression 0).bind fun limit hlimit => gated_pure ?_
    exact pagingWithin_of_limitOffset hlimitOffset (ifSome_some hfirst) (ifSome_some hlimit)
  · refine (gated_clause (hg.expression 0)).bind fun offset hoffset => gated_pure ?_
    exact pagingWithin_of_limitOffset hlimitOffset hoffset (ifSome_some hfirst)

theorem gated_offsetPaging (ordered : Bool) :
    Gated v w (offsetPaging g ordered) (PagingWithin v ordered) := by
  refine (hg.expression 0).bind fun offset hoffset => gated_accept.then fun row => ?_
  refine .choose (p := fun _ => True) (gated_pure trivial) gated_accept fun rows _ => ?_
  refine .ite (fun _ => ?_) fun _ => ?_
  · refine (gated_require hw.paging).bind fun _ hpaging => ?_
    refine (gated_clause (gated_fetchCount hg)).bind fun limit hlimit => ?_
    -- The only look at the version that is no `require`: the other one
    -- must not ask for ORDER BY where this one does not.
    refine gated_refuse (·.dialect.pagingRequiresOrderBy && !ordered) (fun h => ?_) fun h => ?_
    · obtain ⟨hrequires, hnot⟩ := Bool.and_eq_true_iff.mp h
      exact Bool.and_eq_true_iff.mpr ⟨hw.pagingRequiresOrderBy hrequires, hnot⟩
    · refine gated_pure ⟨ifSome_some hoffset, hlimit, fun _ => .inr hpaging,
        fun _ => .inr (.inr ⟨nofun, hpaging⟩), fun hrequires _ _ => ?_⟩
      simpa [hrequires] using h
  · refine (gated_require hw.limitOffset).bind fun _ hlimitOffset => ?_
    refine (gated_clause (hg.expression 0)).bind fun limit hlimit => gated_pure ?_
    exact pagingWithin_of_limitOffset hlimitOffset (ifSome_some hoffset) hlimit

theorem gated_fetchPaging (ordered : Bool) :
    Gated v w (fetchPaging g) (PagingWithin v ordered) := by
  refine (gated_require hw.fetchFirst).bind fun _ hfetchFirst => ?_
  refine (gated_fetchCount hg).bind fun limit hlimit => gated_pure ?_
  exact ⟨nofun, ifSome_some hlimit, fun h => absurd rfl h, fun _ => .inr (.inl hfetchFirst),
    fun _ _ h => absurd rfl h⟩

theorem gated_paging (ordered : Bool) :
    Gated v w (paging? g ordered) (IfSome (PagingWithin v ordered)) := by
  refine (gated_nextMap (p := fun paging => Gated v w paging (PagingWithin v ordered))
    fun t paging h => ?_).bind fun paging? hpaging => ?_
  · split at h
    · cases h
      exact gated_limitPaging hw hg ordered
    · cases h
      exact gated_offsetPaging hw hg ordered
    · cases h
      exact gated_fetchPaging hw hg ordered
    · cases h
  · split
    · next paging => exact (hpaging paging rfl).some
    · exact gated_none

-- ================================================================ WITH

omit hg in
theorem gated_materialization :
    Gated v w materialization? fun m => m ≠ none → v.dialect.materializedHint = true := by
  have hhint : Gated v w materializedHint? fun _ => True := by
    refine gated_accept.then fun _ => .ite (fun _ => gated_pure trivial) fun _ => ?_
    refine gated_accept.then fun _ => .ite (fun _ => ?_) fun _ => gated_pure trivial
    exact gated_expect.then fun _ => gated_pure trivial
  refine hhint.then fun hint => .ite (fun _ => ?_) fun hnone => gated_pure fun hne => ?_
  · exact (gated_require hw.materializedHint).bind fun _ h => gated_pure fun _ => h
  · exact absurd (Option.isSome_iff_ne_none.mpr hne) hnone

/-- A named query that uses only what the dialect version has, by itself
and in its body. -/
def CteWithin (v : DialectVersion) (c : Cte) : Prop :=
  c.UsesOnly v ∧ c.body.Within v

theorem gated_cte (recursive : Bool) (hcte : v.supportsCte = true)
    (hrecursive : recursive = true → v.supportsRecursiveCte = true) :
    Gated v w (cte g recursive) (CteWithin v) := by
  have hbody : ∀ name : String, Gated v w (do
      let body ← g.select
      if body.ctes.isEmpty then pure body else fault (.nestedWith name)) (Select.Within v) :=
    fun _ => hg.select.bind fun _ hq => .ite (fun _ => gated_pure hq) fun _ => gated_fault
  refine gated_identifier.then fun name => gated_peek.then fun token => ?_
  refine .choose (p := fun _ => True) gated_identifierList (gated_pure trivial) fun columns _ => ?_
  refine gated_expect.then fun _ => ?_
  refine (gated_materialization hw).bind fun materialized hmaterialized => ?_
  refine (gated_parenthesized (hbody name)).bind fun body hbody => gated_pure ?_
  exact ⟨⟨hcte, hrecursive, hmaterialized⟩, hbody⟩

theorem gated_withClause :
    Gated v w (withClause g) fun ctes => ∀ c ∈ ctes, CteWithin v c := by
  refine gated_clauseItems ((gated_require hw.cte).bind fun _ hcte => ?_)
  refine gated_accept.then fun recursive => .ite (fun _ => ?_) fun hnot => ?_
  · refine (gated_require hw.recursiveCte).bind fun _ hrecursive => ?_
    exact gated_commaList (gated_cte hw hg recursive hcte fun _ => hrecursive)
  · exact gated_commaList (gated_cte hw hg recursive hcte fun h => absurd h hnot)

-- ============================================================= queries

theorem gated_unions :
    Gated v w (unions g) fun branches => ∀ branch ∈ branches, branch.select.Within v := by
  refine gated_iterate (fun branches hbranches => ?_) (List.forall_mem_nil _)
  refine gated_accept.then fun _ => .ite (fun _ => ?_) fun _ => gated_none
  refine gated_accept.then fun all => (gated_core hw hg).bind fun q hq => ?_
  exact gated_some (forall_mem_concat hbranches hq.within)

theorem gated_selectWith : Gated v w (selectWith g) (Select.Within v) := by
  refine (gated_withClause hw hg).bind fun ctes hctes => ?_
  refine (gated_core hw hg).bind fun first hfirst => ?_
  refine (gated_unions hw hg).bind fun unions hunions => ?_
  refine (gated_orderByClause hg).bind fun orderBy horderBy => ?_
  dsimp only
  have hend : ∀ q : Select, q.PartsWithin v → q.UsesOnly v →
      Gated v w (do pure { q with queryHints := ← queryHints }) (Select.Within v) := by
    refine fun q hparts huses => (gated_queryHints hw).bind fun hints hhints => gated_pure ?_
    exact Select.within_of_parts { huses with queryHints := hhints } { hparts with }
  have hparts := { hfirst.parts with
    ctes := fun c hc => (hctes c hc).2, unions := hunions, orderBy := horderBy :
    Select.PartsWithin v { first with ctes := ctes, unions := unions, orderBy := orderBy } }
  have hcteUses : ∀ c ∈ ctes, c.UsesOnly v := fun c hc => (hctes c hc).1
  -- Without paging the limit is the one after SELECT, with paging there
  -- was none.
  refine (gated_paging hw hg _).bind fun paging? hpaging => ?_
  cases paging? with
  | none =>
      refine (gated_pure (p := fun q => q.PartsWithin v ∧ q.UsesOnly v) ⟨hparts, ?_⟩).bind
        fun q hq => hend q hq.1 hq.2
      exact { hfirst.usesOnly with
        ctes := hcteUses
        ordered := fun _ _ h => absurd hfirst.offset h }
  | some paging =>
      have hpaging := hpaging paging rfl
      refine .ite (fun _ => gated_throw_bind) fun _ => ?_
      refine (gated_pure (p := fun q => q.PartsWithin v ∧ q.UsesOnly v) ⟨?_, ?_⟩).bind
        fun q hq => hend q hq.1 hq.2
      · exact { hparts with offset := hpaging.offsetWithin, limit := hpaging.limitWithin }
      · exact { hfirst.usesOnly with
          ctes := hcteUses
          offset := hpaging.offset
          limit := fun hne => (hpaging.limit hne).imp_right .inr
          ordered := fun hrequires hlimitOffset hne => by
            simpa using hpaging.ordered hrequires hlimitOffset hne }

omit hg in
/-- Whatever its depth, a grammar reads only what the dialect version
has, and reads the same under a version that has more. -/
theorem isGated_ofDepth (depth : Nat) : IsGated v w (ofDepth depth) := by
  induction depth with
  | zero => exact ⟨fun _ => gated_ending, gated_ending⟩
  | succ depth ih => exact ⟨gated_expressionWith ih, gated_selectWith hw ih⟩

end DialectDb.Grammar
