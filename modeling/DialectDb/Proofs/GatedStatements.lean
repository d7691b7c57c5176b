/-
Statements use only what the dialect version has, and a version that has
more reads them alike.

Apart from queries there are few constructs that not all versions have:
DELETE without FROM, MERGE, and what INSERT does with rows that conflict.
The rest of the grammar only hands on what is known of the expressions
and queries that it reads.
-/
import DialectDb.Dialect.Catalog
import DialectDb.Grammar.Statement
import DialectDb.Proofs.GatedQueries

namespace DialectDb.Grammar

open DialectDb.Parser

variable {v w : DialectVersion} {g : Grammar}

-- ============================================================== tables

/-- A column whose default uses only what the dialect version has. -/
def ColumnWithin (v : DialectVersion) (column : ColumnDefinition) : Prop :=
  ∀ e ∈ column.default, e.Within v

/-- Columns of which each does. -/
def ColumnsWithin (v : DialectVersion) (columns : List ColumnDefinition) : Prop :=
  ∀ column ∈ columns, ColumnWithin v column

/-- A constraint of a table leaves the defaults of the columns alone. -/
theorem columnsWithin_mark {mark : ColumnDefinition → ColumnDefinition}
    (hmark : ∀ column, (mark column).default = column.default) {key : String}
    {columns marked : List ColumnDefinition} (h : ColumnsWithin v columns)
    (heq : markColumn? mark key columns = some marked) : ColumnsWithin v marked := by
  induction columns generalizing marked with
  | nil => cases heq
  | cons column columns ih =>
      obtain ⟨hcolumn, hcolumns⟩ := List.forall_mem_cons.mp h
      unfold markColumn? at heq
      split at heq
      · cases heq
        refine List.forall_mem_cons.mpr ⟨fun e he => hcolumn e ?_, hcolumns⟩
        rwa [hmark] at he
      · obtain ⟨rest, hrest, rfl⟩ := Option.map_eq_some_iff.mp heq
        exact List.forall_mem_cons.mpr ⟨hcolumn, ih hcolumns hrest⟩

theorem gated_tableConstraint {mark : ColumnDefinition → ColumnDefinition}
    (hmark : ∀ column, (mark column).default = column.default) {unknown : String → Malformed}
    {columns : List ColumnDefinition} (h : ColumnsWithin v columns) :
    Gated v w (tableConstraint mark unknown columns) (ColumnsWithin v) := by
  refine gated_identifierList.then fun keys => gated_foldlM (fun columns key hcolumns => ?_) h
  split
  · next marked heq => exact gated_pure (columnsWithin_mark hmark hcolumns heq)
  · exact gated_fault

theorem gated_typeArguments : Gated v w typeArguments fun _ => True := by
  refine gated_accept.then fun _ => .ite (fun _ => ?_) fun _ => gated_pure trivial
  refine (gated_commaList (p := fun _ => True) (gated_next.then fun token => ?_)).then
    fun _ => gated_expect
  split
  · exact gated_pure trivial
  · exact gated_fault

theorem gated_setNullable {column : ColumnDefinition} (h : ColumnWithin v column)
    (nullable : Bool) : Gated v w (setNullable column nullable) (ColumnWithin v) :=
  .ite (fun _ => gated_fault) fun _ => gated_pure h

theorem gated_dropTable : Gated v w dropTable (Statement.Within v) := by
  refine gated_expect.then fun _ => gated_expect.then fun _ => ?_
  refine gated_accept.then fun ifExists => .when gated_expect ?_
  refine gated_tableName.then fun name => gated_pure ⟨nofun, nofun, ?_⟩
  exact List.forall_mem_nil _

variable (hg : IsGated v w g)

section
include hg

theorem gated_columnConstraint {column : ColumnDefinition} (h : ColumnWithin v column) :
    Gated v w (columnConstraint? g column) (IfSome (ColumnWithin v)) := by
  refine (gated_nextMap (p := fun _ => True) fun _ _ _ => trivial).then fun word => ?_
  split
  · exact gated_none
  · exact gated_expect.then fun _ => gated_some h
  · exact (gated_setNullable h true).some
  · exact gated_expect.then fun _ => (gated_setNullable h false).some
  · exact (hg.expression 0).bind fun e he => gated_some (ifSome_some he)
  · exact gated_some h
  · exact gated_fault

theorem gated_columnDefinition : Gated v w (columnDefinition g) (ColumnWithin v) := by
  refine gated_identifier.then fun name => gated_identifier.then fun typeName => ?_
  split
  · exact gated_fault
  · refine gated_typeArguments.then fun _ => ?_
    exact gated_iterate (fun _ => gated_columnConstraint hg) nofun

theorem gated_tableElement {columns : List ColumnDefinition} (h : ColumnsWithin v columns) :
    Gated v w (tableElement g columns) (ColumnsWithin v) := by
  refine gated_peek.then fun token => ?_
  split
  · refine gated_next.then fun _ => gated_expect.then fun _ => ?_
    refine gated_tableConstraint ?_ h
    exact fun _ => rfl
  · refine gated_next.then fun _ => gated_tableConstraint ?_ h
    exact fun _ => rfl
  · refine (gated_columnDefinition hg).bind fun column hcolumn => ?_
    exact gated_pure (forall_mem_concat h hcolumn)

theorem gated_createTable : Gated v w (createTable g) (Statement.Within v) := by
  refine gated_expect.then fun _ => gated_expect.then fun _ => ?_
  refine gated_tableName.then fun name => ?_
  have hcolumns : Gated v w (commaFold (tableElement g) []) (ColumnsWithin v) :=
    gated_commaFold (fun _ => gated_tableElement hg) (List.forall_mem_nil _)
  refine (gated_parenthesized hcolumns).bind fun columns hcolumns => ?_
  refine gated_pure ⟨nofun, nofun, List.forall_mem_flatMap.mpr fun column hcolumn => ?_⟩
  exact Expr.within_ofOption (hcolumns column hcolumn)

end

-- ================================================================ rows

/-- Assignments of expressions that use only what the dialect version
has. -/
def AssignmentsWithin (v : DialectVersion) (assignments : List Assignment) : Prop :=
  ∀ a ∈ assignments, a.value.Within v

theorem assignmentsWithin_insert {new : Assignment} (hnew : new.value.Within v)
    {assigned inserted : List Assignment} (h : AssignmentsWithin v assigned)
    (heq : insertAssignment? new assigned = some inserted) : AssignmentsWithin v inserted := by
  induction assigned generalizing inserted with
  | nil =>
      cases heq
      exact List.forall_mem_singleton.mpr hnew
  | cons a assigned ih =>
      obtain ⟨ha, hassigned⟩ := List.forall_mem_cons.mp h
      unfold insertAssignment? at heq
      split at heq
      · cases heq
      split at heq
      · cases heq
        exact List.forall_mem_cons.mpr ⟨hnew, h⟩
      · obtain ⟨rest, hrest, rfl⟩ := Option.map_eq_some_iff.mp heq
        exact List.forall_mem_cons.mpr ⟨ha, ih hassigned hrest⟩

theorem assignmentsWithin_replace {new : Assignment} (hnew : new.value.Within v)
    {assigned : List Assignment} (h : AssignmentsWithin v assigned) :
    AssignmentsWithin v (replaceAssignment new assigned) := by
  induction assigned with
  | nil => exact List.forall_mem_singleton.mpr hnew
  | cons a assigned ih =>
      obtain ⟨ha, hassigned⟩ := List.forall_mem_cons.mp h
      unfold replaceAssignment
      split
      · exact List.forall_mem_cons.mpr ⟨hnew, hassigned⟩
      · exact List.forall_mem_cons.mpr ⟨ha, ih hassigned⟩

theorem gated_columnList : Gated v w columnList? fun _ => True := by
  refine gated_peek.then fun _ => .ite (fun _ => ?_) fun _ => gated_pure trivial
  exact gated_identifierList.map fun _ _ => trivial

section
include hg

theorem gated_valueRow : Gated v w (valueRow g) fun row => ∀ e ∈ row, e.Within v :=
  gated_parenthesized (gated_commaList (hg.expression 0))

/-- The rest of an assignment behind its column. -/
private theorem gated_assignTo (column : String) {assigned : List Assignment}
    (h : AssignmentsWithin v assigned) :
    Gated v w (do
      expect Sign.equal
      let value ← g.expression 0
      match insertAssignment? ⟨column, value⟩ assigned with
      | some assigned => pure assigned
      | none => fault (.assignedTwice column)) (AssignmentsWithin v) := by
  refine gated_expect.then fun _ => (hg.expression 0).bind fun e he => ?_
  split
  · next heq => exact gated_pure (assignmentsWithin_insert he h heq)
  · exact gated_fault

theorem gated_assignments : Gated v w (assignments g) (AssignmentsWithin v) := by
  refine gated_commaFold (fun assigned hassigned => ?_) (List.forall_mem_nil _)
  refine gated_identifier.then fun first => gated_accept.then fun _ => ?_
  exact .choose gated_identifier (gated_pure trivial) fun column _ =>
    gated_assignTo hg column hassigned

theorem gated_upsertAssignments : Gated v w (upsertAssignments g) (AssignmentsWithin v) := by
  refine Gated.upserting (gated_commaFold (fun assigned hassigned => ?_)
    (List.forall_mem_nil _))
  refine gated_identifier.then fun column => gated_expect.then fun _ => ?_
  refine (hg.expression 0).bind fun e he => gated_pure ?_
  exact assignmentsWithin_replace he hassigned

end

/-- INSERT that uses only what the dialect version has, by itself and in
its rows and queries. -/
structure InsertWithin (v : DialectVersion) (i : Insert) : Prop where
  uses : i.UsesOnly v
  rows : ∀ row ∈ i.rows, ∀ e ∈ row, e.Within v
  query : ∀ q ∈ i.query, q.Within v
  assignments : AssignmentsWithin v i.assignments

theorem InsertWithin.statement {i : Insert} (h : InsertWithin v i) :
    (Statement.insert i).Within v := by
  have hrows : ∀ q ∈ i.rows.flatMap (·.flatMap Expr.queries), q.UsesOnly v :=
    List.forall_mem_flatMap.mpr fun row hrow => List.forall_mem_flatMap.mpr (h.rows row hrow)
  have hquery : ∀ q ∈ (i.query.map Select.queries).getD [], q.UsesOnly v := by
    cases hsome : i.query with
    | none => exact List.forall_mem_nil _
    | some inner => exact h.query inner hsome
  have hassignments : ∀ q ∈ i.assignments.flatMap (·.value.queries), q.UsesOnly v :=
    List.forall_mem_flatMap.mpr h.assignments
  refine ⟨?_, nofun, ?_⟩
  · intro inner hinner
    cases hinner
    exact h.uses
  · exact List.forall_mem_append.mpr ⟨hrows, List.forall_mem_append.mpr ⟨hquery, hassignments⟩⟩

/-- INSERT that says nothing of rows that conflict. -/
theorem insertWithin_plain {table : String} {columns : Option (List String)}
    {rows : List (List Expr)} {query : Option Select} (hrows : ∀ row ∈ rows, ∀ e ∈ row, e.Within v)
    (hquery : ∀ q ∈ query, q.Within v) : InsertWithin v { table, columns, rows, query } := by
  refine ⟨⟨fun h => absurd rfl h, nofun, fun h => absurd rfl h⟩, hrows, hquery, ?_⟩
  exact List.forall_mem_nil _

section
include hg

theorem gated_conflictClause (hw : w.Covers v) {i : Insert} (h : InsertWithin v i) :
    Gated v w (conflictClause g i) (InsertWithin v) := by
  refine gated_accept.then fun _ => .ite (fun _ => gated_pure h) fun _ => ?_
  refine gated_next.then fun token => ?_
  split
  · refine (gated_require hw.onConflict).bind fun _ hconflict => ?_
    refine gated_columnList.then fun target => gated_expect.then fun _ => ?_
    refine gated_accept.then fun _ => .ite (fun _ => gated_pure ?_) fun _ => ?_
    · exact { h with uses := ⟨fun _ => hconflict, fun _ => hconflict, fun _ => .inl hconflict⟩ }
    · refine gated_expect.then fun _ => gated_expect.then fun _ => ?_
      refine (gated_upsertAssignments hg).bind fun assigned hassigned => gated_pure ?_
      exact { h with
        uses := ⟨fun _ => hconflict, fun _ => hconflict, fun _ => .inl hconflict⟩
        assignments := hassigned }
  · refine (gated_require hw.onDuplicateKeyUpdate).bind fun _ hduplicate => ?_
    refine gated_expect.then fun _ => gated_expect.then fun _ => ?_
    refine (gated_upsertAssignments hg).bind fun assigned hassigned => gated_pure ?_
    exact { h with
      uses := { h.uses with assignments := fun _ => .inr hduplicate }
      assignments := hassigned }
  · exact gated_fault

theorem gated_insert (hw : w.Covers v) : Gated v w (insert g) (Statement.Within v) := by
  have hend : ∀ i : Insert, InsertWithin v i →
      Gated v w (.insert <$> conflictClause g i) (Statement.Within v) :=
    fun _ hi => (gated_conflictClause hg hw hi).map fun _ => InsertWithin.statement
  refine gated_expect.then fun _ => gated_expect.then fun _ => ?_
  refine gated_tableName.then fun table => gated_columnList.then fun columns => ?_
  refine gated_atQuery.then fun _ => .ite (fun _ => ?_) fun _ => ?_
  · refine hg.select.bind fun q hq => (gated_pure ?_).bind hend
    exact insertWithin_plain (List.forall_mem_nil _) (ifSome_some hq)
  · refine gated_expect.then fun _ => ?_
    refine (gated_commaList (gated_valueRow hg)).bind fun rows hrows => (gated_pure ?_).bind hend
    exact insertWithin_plain hrows nofun

theorem gated_update : Gated v w (update g) (Statement.Within v) := by
  refine gated_expect.then fun _ => gated_tableName.then fun table => ?_
  refine gated_expect.then fun _ => (gated_assignments hg).bind fun assigned hassigned => ?_
  refine (gated_whereClause hg).bind fun predicate hpredicate => ?_
  refine gated_pure ⟨nofun, nofun, List.forall_mem_append.mpr ⟨?_, ?_⟩⟩
  · exact List.forall_mem_flatMap.mpr hassigned
  · exact Expr.within_ofOption hpredicate

theorem gated_delete (hw : w.Covers v) : Gated v w (delete g) (Statement.Within v) := by
  refine gated_expect.then fun _ => gated_accept.then fun _ => ?_
  refine .when (gated_require hw.deleteWithoutFrom) (gated_tableName.then fun table => ?_)
  refine (gated_whereClause hg).bind fun predicate hpredicate => ?_
  exact gated_pure ⟨nofun, nofun, Expr.within_ofOption hpredicate⟩

end

-- =============================================================== MERGE

/-- A source of MERGE that uses only what the dialect version has. -/
structure SourceWithin (v : DialectVersion) (source : MergeSource) : Prop where
  uses : ∀ t, source = .table t → t.UsesOnly v
  queries : ∀ q ∈ source.queries, q.UsesOnly v

/-- A clause of MERGE within which all queries use only what the dialect
version has. -/
def ClauseWithin (v : DialectVersion) (clause : MergeClause) : Prop :=
  ∀ q ∈ clause.queries, q.UsesOnly v

section
include hg

theorem gated_mergeSource (hw : w.Covers v) : Gated v w (mergeSource g) (SourceWithin v) := by
  refine gated_accept.then fun _ => .ite (fun _ => ?_) fun _ => ?_
  · refine hg.select.bind fun q hq => gated_expect.then fun _ => gated_skipOver.then fun _ => ?_
    exact gated_identifier.then fun _ => gated_pure ⟨nofun, hq⟩
  · refine (gated_tableRef hw).map fun t ht => ⟨?_, List.forall_mem_nil _⟩
    intro table htable
    cases htable
    exact ht

theorem gated_mergeAction (matched : Bool) :
    Gated v w (mergeAction g matched) fun action => ∀ q ∈ action.queries, q.UsesOnly v := by
  refine gated_next.then fun token => ?_
  split
  · refine gated_expect.then fun _ => (gated_assignments hg).map fun assigned hassigned => ?_
    exact List.forall_mem_flatMap.mpr hassigned
  · exact gated_pure (List.forall_mem_nil _)
  · refine gated_columnList.then fun columns => gated_expect.then fun _ => ?_
    refine (gated_valueRow hg).bind fun row hrow => gated_pure ?_
    exact List.forall_mem_flatMap.mpr hrow
  · exact gated_fault
  · exact gated_fault

theorem gated_mergeClause : Gated v w (mergeClause g) (ClauseWithin v) := by
  have hend : ∀ matched : Bool, Gated v w (do
      let condition ← clause? .AND (g.expression 0)
      expect Keyword.THEN
      pure ⟨matched, condition, ← mergeAction g matched⟩) (ClauseWithin v) := by
    intro matched
    refine (gated_clause (hg.expression 0)).bind fun condition hcondition => ?_
    refine gated_expect.then fun _ => ?_
    refine (gated_mergeAction hg matched).bind fun action haction => gated_pure ?_
    exact List.forall_mem_append.mpr ⟨Expr.within_ofOption hcondition, haction⟩
  refine gated_accept.then fun unmatched => gated_expect.then fun _ => ?_
  refine .choose (p := fun _ => True) (gated_pure trivial) gated_accept fun byTarget _ => ?_
  refine .ite (fun _ => ?_) fun _ => hend _
  exact gated_identifier.then fun name => .ite (fun _ => gated_fault_bind) fun _ => hend _

theorem gated_merge (hw : w.Covers v) : Gated v w (merge g) (Statement.Within v) := by
  have hclauses : Gated v w (iterate (fun clauses => do
      if ← accept Keyword.WHEN then pure (some (clauses ++ [← mergeClause g]))
      else pure none) []) fun clauses => ∀ clause ∈ clauses, ClauseWithin v clause := by
    refine gated_iterate (fun clauses hclauses => ?_) (List.forall_mem_nil _)
    refine gated_accept.then fun _ => .ite (fun _ => ?_) fun _ => gated_none
    refine (gated_mergeClause hg).bind fun clause hclause => ?_
    exact gated_some (forall_mem_concat hclauses hclause)
  refine gated_expect.then fun _ => (gated_require hw.merge).bind fun _ hmerge => ?_
  refine gated_skipOver.then fun _ => (gated_tableRef hw).bind fun target htarget => ?_
  refine gated_expect.then fun _ => (gated_mergeSource hg hw).bind fun source hsource => ?_
  refine gated_expect.then fun _ => (hg.expression 0).bind fun predicate hpredicate => ?_
  refine hclauses.bind fun clauses hclauses => .ite (fun _ => ?_) fun _ => gated_pure ?_
  · exact gated_peekPosition.then fun _ => gated_throw_bind
  · refine ⟨nofun, ?_, ?_⟩
    · intro m hm
      cases hm
      exact ⟨hmerge, htarget, hsource.uses⟩
    · exact List.forall_mem_append.mpr ⟨hsource.queries,
        List.forall_mem_append.mpr ⟨hpredicate, List.forall_mem_flatMap.mpr hclauses⟩⟩

-- ========================================================== statements

theorem gated_statement (hw : w.Covers v) : Gated v w (statement g) (Statement.Within v) := by
  have hquery : Gated v w (.select <$> g.select) (Statement.Within v) :=
    hg.select.map fun _ hq => ⟨nofun, nofun, hq⟩
  refine gated_peekPosition.then fun position => gated_peek.then fun token => ?_
  split
  · exact gated_ending
  · exact gated_createTable hg
  · exact gated_dropTable
  · exact gated_delete hg hw
  · exact gated_insert hg hw
  · exact hquery
  · exact hquery
  · exact gated_update hg
  · exact gated_merge hg hw
  · exact gated_throw

theorem gated_wholeStatement (hw : w.Covers v) :
    Gated v w (wholeStatement g) (Statement.Within v) := by
  refine (gated_statement hg hw).bind fun s hs => gated_skipOver.then fun _ => ?_
  refine gated_peek.then fun token => ?_
  split
  · exact gated_pure hs
  · exact gated_peekPosition.then fun _ => gated_throw

end

end DialectDb.Grammar

namespace DialectDb.Statement

open DialectDb.Grammar

/-- What is read under a dialect version uses only what the version has,
and is read under a version that covers it as well. -/
theorem parse_gated {v w : DialectVersion} (hw : w.Covers v) {text : String} {s : Statement}
    (h : parse v text = .ok s) : s.Within v ∧ parse w text = .ok s := by
  obtain ⟨⟨s, d⟩, hperform, hpure⟩ := Result.bind_eq_ok.mp h
  cases hpure
  obtain ⟨hs, hperform'⟩ :=
    gated_wholeStatement (isGated_ofDepth hw _) hw _ { lexemes := _ } s d rfl hperform
  refine ⟨hs, ?_⟩
  -- Both cut the text into the same tokens, so that the depth of the
  -- grammar is the same as well.
  unfold parse
  rw [hw.lexical]
  exact Result.bind_eq_ok.mpr ⟨(s, d), hperform', rfl⟩

/-- Whatever is read under a dialect version uses only what the version
has, at every depth. -/
theorem parse_within :
    ∀ (v : DialectVersion) (text : String) (s : Statement), parse v text = .ok s → s.Within v :=
  fun v _ _ h => (parse_gated v.covers_refl h).1

/-- So `WITH c AS (SELECT TOP 3 a FROM t (NOLOCK)) SELECT a FROM c ORDER
BY a OFFSET 1 ROW` uses only what SQL Server 2012 has, in both of its
queries. -/
theorem parse_within_page :
    ∃ s, parse ⟨.sqlServer, 2012⟩
        "WITH c AS (SELECT TOP 3 a FROM t (NOLOCK)) SELECT a FROM c ORDER BY a OFFSET 1 ROW" =
          .ok s ∧
      s.queries.length = 2 ∧ s.Within ⟨.sqlServer, 2012⟩ := by
  have hqueries : (·.queries.length) <$> parse ⟨.sqlServer, 2012⟩
      "WITH c AS (SELECT TOP 3 a FROM t (NOLOCK)) SELECT a FROM c ORDER BY a OFFSET 1 ROW" =
        .ok 2 := by
    decide +kernel
  obtain ⟨s, hread, hlength⟩ := Result.map_eq_ok.mp hqueries
  exact ⟨s, hread, hlength, parse_within _ _ s hread⟩

/-- A dialect version that has whatever another one has reads all texts
that the other one reads, and reads the same. A later version of a
dialect does so for an earlier one. -/
theorem parse_of_covers :
    (∀ v w : DialectVersion, w.Covers v →
      ∀ (text : String) (s : Statement), parse v text = .ok s → parse w text = .ok s) ∧
    ∀ (d : Dialect) (m n : Nat), m ≤ n →
      ∀ (text : String) (s : Statement), parse ⟨d, m⟩ text = .ok s → parse ⟨d, n⟩ text = .ok s := by
  have hcovers : ∀ v w : DialectVersion, w.Covers v →
      ∀ (text : String) (s : Statement), parse v text = .ok s → parse w text = .ok s :=
    fun _ _ hw _ _ h => (parse_gated hw h).2
  exact ⟨hcovers, fun d m n h => hcovers ⟨d, m⟩ ⟨d, n⟩ (DialectVersion.covers_of_le d h)⟩

/-- So the first two rows that DB2 reads are those that PostgreSQL reads,
and SQL Server 2022 pages as 2012 does. -/
theorem parse_of_covers_paging :
    (∃ s, parse ⟨.db2, 11⟩ "SELECT a FROM t FETCH FIRST 2 ROWS ONLY" = .ok s ∧
      parse ⟨.postgreSql, 17⟩ "SELECT a FROM t FETCH FIRST 2 ROWS ONLY" = .ok s) ∧
    ∃ s, parse ⟨.sqlServer, 2012⟩ "SELECT a FROM t ORDER BY a OFFSET 1 ROW" = .ok s ∧
      parse ⟨.sqlServer, 2022⟩ "SELECT a FROM t ORDER BY a OFFSET 1 ROW" = .ok s := by
  have hcovers : DialectVersion.Covers ⟨.postgreSql, 17⟩ ⟨.db2, 11⟩ := by
    constructor <;> decide
  have hfetch : (·.queries.length) <$> parse ⟨.db2, 11⟩
      "SELECT a FROM t FETCH FIRST 2 ROWS ONLY" = .ok 1 := by
    decide +kernel
  have hoffset : (·.queries.length) <$> parse ⟨.sqlServer, 2012⟩
      "SELECT a FROM t ORDER BY a OFFSET 1 ROW" = .ok 1 := by
    decide +kernel
  obtain ⟨first, hfirst, -⟩ := Result.map_eq_ok.mp hfetch
  obtain ⟨page, hpage, -⟩ := Result.map_eq_ok.mp hoffset
  exact ⟨⟨first, hfirst, parse_of_covers.1 _ _ hcovers _ first hfirst⟩,
    page, hpage, parse_of_covers.2 _ 2012 2022 (by decide) _ page hpage⟩

end DialectDb.Statement
