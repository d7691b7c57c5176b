/-
Readers make well-formed statements, so that a text that parses is one.
Upsert assignments are the only expressions that are read where the row
that was to be inserted can be referred to. They are put into a list in
which a later assignment to the same column takes the place of an
earlier one, while those of UPDATE and MERGE are kept as they are read.
-/
import DialectDb.Grammar.Statement
import DialectDb.Proofs.MadeQueries

namespace DialectDb.Grammar

open DialectDb.Parser

variable {g : Grammar} {upsert : Bool}

-- ============================================================== tables

/-- A column with a well-formed default. -/
def ColumnWellFormed (column : ColumnDefinition) : Prop :=
  ∀ e ∈ column.default, e.WellFormed false

/-- Columns of which each has one. -/
def ColumnsWellFormed (columns : List ColumnDefinition) : Prop :=
  ∀ column ∈ columns, ColumnWellFormed column

/-- A constraint of a table leaves the defaults of the columns alone. -/
theorem columnsWellFormed_mark {mark : ColumnDefinition → ColumnDefinition}
    (hmark : ∀ column, (mark column).default = column.default) {key : String}
    {columns marked : List ColumnDefinition} (h : ColumnsWellFormed columns)
    (heq : markColumn? mark key columns = some marked) : ColumnsWellFormed marked := by
  induction columns generalizing marked with
  | nil => cases heq
  | cons column columns ih =>
      obtain ⟨hcolumn, hcolumns⟩ := List.forall_mem_cons.mp h
      unfold markColumn? at heq
      split at heq
      · cases heq
        refine List.forall_mem_cons.mpr ⟨fun e he => hcolumn e ?_, hcolumns⟩
        rwa [hmark] at he
      · obtain ⟨rest, hrest, rfl⟩ := Option.map_eq_some_iff.mp heq
        exact List.forall_mem_cons.mpr ⟨hcolumn, ih hcolumns hrest⟩

theorem makes_tableConstraint {mark : ColumnDefinition → ColumnDefinition}
    (hmark : ∀ column, (mark column).default = column.default) {unknown : String → Malformed}
    {columns : List ColumnDefinition} (h : ColumnsWellFormed columns) :
    Makes upsert (tableConstraint mark unknown columns) ColumnsWellFormed := by
  refine moves_identifierList.then fun keys => makes_foldlM (fun columns key hcolumns => ?_) h
  split
  · next marked heq => exact makes_pure (columnsWellFormed_mark hmark hcolumns heq)
  · exact makes_fault

theorem moves_typeArguments : Moves upsert typeArguments := by
  refine moves_accept.then fun _ => .ite (fun _ => ?_) fun _ => makes_pure trivial
  refine (makes_commaList (p := fun _ => True) (moves_next.then fun token => ?_)).then
    fun _ => moves_expect
  split
  · exact makes_pure trivial
  · exact makes_fault

theorem makes_setNullable {column : ColumnDefinition} (h : ColumnWellFormed column)
    (nullable : Bool) : Makes upsert (setNullable column nullable) ColumnWellFormed :=
  .ite (fun _ => makes_fault) fun _ => makes_pure h

theorem makes_dropTable : Makes upsert dropTable Statement.WellFormed := by
  refine moves_expect.then fun _ => moves_expect.then fun _ => ?_
  refine moves_accept.then fun ifExists => .when moves_expect ?_
  exact moves_tableName.then fun name => makes_pure trivial

section
variable (hg : MakesWellFormed g)
include hg

theorem makes_columnConstraint {column : ColumnDefinition} (h : ColumnWellFormed column) :
    Makes false (columnConstraint? g column) (IfSome ColumnWellFormed) := by
  refine moves_nextMap.then fun word => ?_
  split
  · exact makes_none
  · exact moves_expect.then fun _ => makes_some h
  · exact (makes_setNullable h true).some
  · exact moves_expect.then fun _ => (makes_setNullable h false).some
  · exact (hg.expression false 0).bind fun e he => makes_some (ifSome_some he)
  · exact makes_some h
  · exact makes_fault

theorem makes_columnDefinition : Makes false (columnDefinition g) ColumnWellFormed := by
  refine moves_identifier.then fun name => moves_identifier.then fun typeName => ?_
  split
  · exact makes_fault
  · refine moves_typeArguments.then fun _ => ?_
    exact makes_iterate (fun _ => makes_columnConstraint hg) nofun

theorem makes_tableElement {columns : List ColumnDefinition} (h : ColumnsWellFormed columns) :
    Makes false (tableElement g columns) ColumnsWellFormed := by
  refine moves_peek.then fun token => ?_
  split
  · refine moves_next.then fun _ => moves_expect.then fun _ => ?_
    refine makes_tableConstraint ?_ h
    exact fun _ => rfl
  · refine moves_next.then fun _ => makes_tableConstraint ?_ h
    exact fun _ => rfl
  · refine (makes_columnDefinition hg).bind fun column hcolumn => ?_
    exact makes_pure (forall_mem_concat h hcolumn)

theorem makes_createTable : Makes false (createTable g) Statement.WellFormed := by
  refine moves_expect.then fun _ => moves_expect.then fun _ => moves_tableName.then fun name => ?_
  have hcolumns : Makes false (commaFold (tableElement g) []) ColumnsWellFormed :=
    makes_commaFold (makes_tableElement hg (List.forall_mem_nil _)) fun _ => makes_tableElement hg
  exact (makes_parenthesized hcolumns).bind fun columns hcolumns => makes_pure hcolumns

end

-- ========================================================= assignments

theorem wellFormedList_insertAssignment {new : Assignment} (hnew : new.value.WellFormed upsert)
    {assigned inserted : List Assignment} (h : Assignment.WellFormedList upsert assigned)
    (heq : insertAssignment? new assigned = some inserted) :
    Assignment.WellFormedList upsert inserted := by
  induction assigned generalizing inserted with
  | nil =>
      cases heq
      exact List.forall_mem_singleton.mpr hnew
  | cons a assigned ih =>
      obtain ⟨ha, hassigned⟩ := List.forall_mem_cons.mp h
      unfold insertAssignment? at heq
      split at heq
      · cases heq
      split at heq
      · cases heq
        exact List.forall_mem_cons.mpr ⟨hnew, h⟩
      · obtain ⟨rest, hrest, rfl⟩ := Option.map_eq_some_iff.mp heq
        exact List.forall_mem_cons.mpr ⟨ha, ih hassigned hrest⟩

theorem replaceAssignment_ne_nil (new : Assignment) (assigned : List Assignment) :
    replaceAssignment new assigned ≠ [] := by
  cases assigned with
  | nil => exact List.cons_ne_nil _ _
  | cons a assigned =>
      unfold replaceAssignment
      split <;> exact List.cons_ne_nil _ _

theorem wellFormedList_replaceAssignment {new : Assignment} (hnew : new.value.WellFormed upsert)
    {assigned : List Assignment} (h : Assignment.WellFormedList upsert assigned) :
    Assignment.WellFormedList upsert (replaceAssignment new assigned) := by
  induction assigned with
  | nil => exact List.forall_mem_singleton.mpr hnew
  | cons a assigned ih =>
      obtain ⟨ha, hassigned⟩ := List.forall_mem_cons.mp h
      unfold replaceAssignment
      split
      · exact List.forall_mem_cons.mpr ⟨hnew, hassigned⟩
      · exact List.forall_mem_cons.mpr ⟨ha, ih hassigned⟩

/-- An assignment adds at most its own column to those of a list. -/
theorem column_of_mem_replaceAssignment {new b : Assignment} {assigned : List Assignment}
    (h : b ∈ replaceAssignment new assigned) :
    b.column = new.column ∨ ∃ a ∈ assigned, a.column = b.column := by
  induction assigned with
  | nil =>
      rw [List.mem_singleton.mp h]
      exact .inl rfl
  | cons a assigned ih =>
      unfold replaceAssignment at h
      split at h
      · rcases List.mem_cons.mp h with rfl | hmem
        · exact .inr ⟨a, List.mem_cons_self, rfl⟩
        · exact .inr ⟨b, List.mem_cons_of_mem a hmem, rfl⟩
      · rcases List.mem_cons.mp h with rfl | hmem
        · exact .inr ⟨b, List.mem_cons_self, rfl⟩
        · exact (ih hmem).imp_right fun ⟨c, hc, hcolumn⟩ => ⟨c, List.mem_cons_of_mem a hc, hcolumn⟩

/-- A column that is assigned again is still assigned once. -/
theorem distinct_replaceAssignment (new : Assignment) {assigned : List Assignment}
    (h : Assignment.Distinct assigned) :
    Assignment.Distinct (replaceAssignment new assigned) := by
  induction assigned with
  | nil => exact List.pairwise_singleton _ new
  | cons a assigned ih =>
      obtain ⟨ha, hassigned⟩ := List.pairwise_cons.mp h
      unfold replaceAssignment
      split
      · exact List.pairwise_cons.mpr ⟨ha, hassigned⟩
      · next hother =>
          refine List.pairwise_cons.mpr ⟨fun b hb => ?_, ih hassigned⟩
          rcases column_of_mem_replaceAssignment hb with hnew | ⟨c, hc, hcolumn⟩
          · rw [hnew]
            exact eq_false_of_ne_true hother
          · rw [← hcolumn]
            exact ha c hc

-- ================================================================ rows

theorem moves_columnList : Moves upsert columnList? := by
  refine moves_peek.then fun _ => .ite (fun _ => ?_) fun _ => makes_pure trivial
  exact moves_identifierList.map fun _ => id

/-- Upsert assignments: some, each to a column of its own. -/
structure UpsertWellFormed (assigned : List Assignment) : Prop where
  nonempty : assigned ≠ []
  values : Assignment.WellFormedList true assigned
  distinct : Assignment.Distinct assigned

section
variable (hg : MakesWellFormed g)
include hg

theorem makes_valueRow : Makes false (valueRow g) fun row => ∀ e ∈ row, e.WellFormed false :=
  makes_parenthesized (makes_commaList (hg.expression false 0))

/-- The rest of an assignment behind its column. -/
private theorem makes_assignTo (column : String) {assigned : List Assignment}
    (h : Assignment.WellFormedList false assigned) :
    Makes false (do
      expect Sign.equal
      let value ← g.expression 0
      match insertAssignment? ⟨column, value⟩ assigned with
      | some assigned => pure assigned
      | none => fault (.assignedTwice column)) (Assignment.WellFormedList false) := by
  refine moves_expect.then fun _ => (hg.expression false 0).bind fun e he => ?_
  split
  · next heq => exact makes_pure (wellFormedList_insertAssignment he h heq)
  · exact makes_fault

theorem makes_assignments : Makes false (assignments g) (Assignment.WellFormedList false) := by
  have hitem : ∀ assigned, Assignment.WellFormedList false assigned → Makes false (do
      let first ← identifier
      let column ← if ← accept Sign.period then identifier else pure first
      expect Sign.equal
      let value ← g.expression 0
      match insertAssignment? ⟨column, value⟩ assigned with
      | some assigned => pure assigned
      | none => fault (.assignedTwice column)) (Assignment.WellFormedList false) := by
    intro assigned hassigned
    refine moves_identifier.then fun first => moves_accept.then fun _ => ?_
    exact .choose moves_identifier (makes_pure trivial) fun column _ =>
      makes_assignTo hg column hassigned
  exact makes_commaFold (hitem [] (List.forall_mem_nil _)) hitem

theorem makes_upsertAssignments : Makes upsert (upsertAssignments g) UpsertWellFormed := by
  have hitem : ∀ assigned, Assignment.WellFormedList true assigned →
      Assignment.Distinct assigned → Makes true (do
        let column ← identifier
        expect Sign.equal
        let value ← g.expression 0
        pure (replaceAssignment ⟨column, value⟩ assigned)) UpsertWellFormed := by
    intro assigned hvalues hdistinct
    refine moves_identifier.then fun column => moves_expect.then fun _ => ?_
    refine (hg.expression true 0).bind fun e he => makes_pure ⟨?_, ?_, ?_⟩
    · exact replaceAssignment_ne_nil _ assigned
    · exact wellFormedList_replaceAssignment he hvalues
    · exact distinct_replaceAssignment _ hdistinct
  refine Makes.upserting (makes_commaFold (hitem [] (List.forall_mem_nil _) .nil) ?_)
  exact fun assigned h => hitem assigned h.values h.distinct

/-- INSERT that says nothing yet of rows that conflict. -/
structure InsertPlain (i : Insert) : Prop where
  wellFormed : i.WellFormed
  conflictTarget : i.conflictTarget = []
  assignments : i.assignments = []
  ignoreConflicts : i.ignoreConflicts = false

omit hg in
/-- INSERT of rows or of a query, with defaults for the rest. -/
theorem insertPlain {table : String} {columns : Option (List String)} {rows : List (List Expr)}
    {query : Option Select} (hsource : rows ≠ [] ∧ query = none ∨ rows = [] ∧ query ≠ none)
    (hrows : ∀ row ∈ rows, ∀ e ∈ row, e.WellFormed false)
    (hquery : ∀ q ∈ query, q.WellFormed false) :
    InsertPlain { table, columns, rows, query } := by
  refine ⟨⟨hsource, hrows, hquery, ?_, .nil, nofun, ?_⟩, rfl, rfl, rfl⟩
  · exact List.forall_mem_nil _
  · exact fun h => absurd rfl h

theorem makes_conflictClause {i : Insert} (h : InsertPlain i) :
    Makes false (conflictClause g i) Insert.WellFormed := by
  -- Each of the two spellings of an upsert puts the assignments that it
  -- reads into the same field.
  have hupsert : ∀ target : List String, Makes false (do
      pure { i with conflictTarget := target, assignments := ← upsertAssignments g })
      Insert.WellFormed := by
    intro target
    refine (makes_upsertAssignments hg).bind fun assigned hassigned => makes_pure ?_
    exact { h.wellFormed with
      assignments := hassigned.values
      distinct := hassigned.distinct
      exclusive := fun hignore => absurd (h.ignoreConflicts.symm.trans hignore) Bool.false_ne_true
      conflictTarget := fun _ => .inr hassigned.nonempty }
  refine moves_accept.then fun _ => .ite (fun _ => makes_pure h.wellFormed) fun _ => ?_
  refine moves_next.then fun token => ?_
  split
  · refine moves_require.then fun _ => moves_columnList.then fun target => ?_
    refine moves_expect.then fun _ => moves_accept.then fun _ => .ite (fun _ => makes_pure ?_) fun _ => ?_
    · exact { h.wellFormed with
        exclusive := fun _ => h.assignments
        conflictTarget := fun _ => .inl rfl }
    · exact moves_expect.then fun _ => moves_expect.then fun _ => hupsert _
  · refine moves_require.then fun _ => moves_expect.then fun _ => moves_expect.then fun _ => ?_
    exact hupsert i.conflictTarget
  · exact makes_fault

theorem makes_insert : Makes false (insert g) Statement.WellFormed := by
  have hend : ∀ i : Insert, InsertPlain i →
      Makes false (.insert <$> conflictClause g i) Statement.WellFormed :=
    fun _ hi => (makes_conflictClause hg hi).map fun _ => id
  refine moves_expect.then fun _ => moves_expect.then fun _ => ?_
  refine moves_tableName.then fun table => moves_columnList.then fun columns => ?_
  refine moves_atQuery.then fun _ => .ite (fun _ => ?_) fun _ => ?_
  · refine (hg.select false).bind fun q hq => (makes_pure ?_).bind hend
    exact insertPlain (.inr ⟨rfl, Option.some_ne_none q⟩) (List.forall_mem_nil _) (ifSome_some hq)
  · refine moves_expect.then fun _ => ?_
    refine (makes_commaList_nonempty (makes_valueRow hg)).bind fun rows hrows => ?_
    exact (makes_pure (insertPlain (.inl ⟨hrows.1, rfl⟩) hrows.2 nofun)).bind hend

theorem makes_update : Makes false (update g) Statement.WellFormed := by
  refine moves_expect.then fun _ => moves_tableName.then fun table => moves_expect.then fun _ => ?_
  refine (makes_assignments hg).bind fun assigned hassigned => ?_
  exact (makes_whereClause hg).bind fun predicate hpredicate =>
    makes_pure ⟨hassigned, hpredicate⟩

theorem makes_delete : Makes false (delete g) Statement.WellFormed := by
  refine moves_expect.then fun _ => moves_accept.then fun _ => .when moves_require ?_
  refine moves_tableName.then fun table => ?_
  exact (makes_whereClause hg).bind fun predicate hpredicate => makes_pure hpredicate

-- =============================================================== MERGE

theorem makes_mergeSource : Makes false (mergeSource g) MergeSource.WellFormed := by
  refine moves_accept.then fun _ => .ite (fun _ => ?_) fun _ => ?_
  · refine (hg.select false).bind fun q hq => moves_expect.then fun _ => ?_
    exact moves_skipOver.then fun _ => moves_identifier.then fun _ => makes_pure hq
  · exact moves_tableRef.map fun _ _ => trivial

/-- Matched rows are never inserted, and rows without a match never
updated or deleted. -/
theorem makes_mergeAction (matched : Bool) :
    Makes false (mergeAction g matched) fun action =>
      action.isInsert = !matched ∧ action.WellFormed := by
  refine moves_next.then fun token => ?_
  split
  · exact moves_expect.then fun _ => (makes_assignments hg).map fun _ h => ⟨rfl, h⟩
  · exact makes_pure ⟨rfl, trivial⟩
  · refine moves_columnList.then fun columns => moves_expect.then fun _ => ?_
    exact (makes_valueRow hg).bind fun row hrow => makes_pure ⟨rfl, hrow⟩
  · exact makes_fault
  · exact makes_fault

theorem makes_mergeClause : Makes false (mergeClause g) MergeClause.WellFormed := by
  have hend : ∀ matched : Bool, Makes false (do
      let condition ← clause? .AND (g.expression 0)
      expect Keyword.THEN
      pure ⟨matched, condition, ← mergeAction g matched⟩) MergeClause.WellFormed := by
    intro matched
    refine (makes_clause (hg.expression false 0)).bind fun condition hcondition => ?_
    refine moves_expect.then fun _ => (makes_mergeAction hg matched).bind fun action haction => ?_
    exact makes_pure ⟨haction.1, hcondition, haction.2⟩
  refine moves_accept.then fun unmatched => moves_expect.then fun _ => ?_
  refine .choose (p := fun _ => True) (makes_pure trivial) moves_accept fun byTarget _ => ?_
  refine .ite (fun _ => ?_) fun _ => hend _
  exact moves_identifier.then fun name => .ite (fun _ => makes_fault_bind) fun _ => hend _

theorem makes_merge : Makes false (merge g) Statement.WellFormed := by
  have hclauses : Makes false (iterate (fun clauses => do
      if ← accept Keyword.WHEN then pure (some (clauses ++ [← mergeClause g]))
      else pure none) []) fun clauses => ∀ clause ∈ clauses, clause.WellFormed := by
    refine makes_iterate (fun clauses hclauses => ?_) (List.forall_mem_nil _)
    refine moves_accept.then fun _ => .ite (fun _ => ?_) fun _ => makes_none
    refine (makes_mergeClause hg).bind fun clause hclause => ?_
    exact makes_some (forall_mem_concat hclauses hclause)
  refine moves_expect.then fun _ => moves_require.then fun _ => moves_skipOver.then fun _ => ?_
  refine moves_tableRef.then fun target => moves_expect.then fun _ => ?_
  refine (makes_mergeSource hg).bind fun source hsource => moves_expect.then fun _ => ?_
  refine (hg.expression false 0).bind fun predicate hpredicate => ?_
  refine hclauses.bind fun clauses hclauses => .ite (fun _ => ?_) fun hnonempty => makes_pure ?_
  · exact moves_peekPosition.then fun _ => makes_throw_bind
  · refine ⟨hsource, hpredicate, hclauses, fun hempty => hnonempty ?_⟩
    exact List.isEmpty_iff.mpr hempty

-- ========================================================== statements

theorem makes_statement : Makes false (statement g) Statement.WellFormed := by
  have hquery : Makes false (.select <$> g.select) Statement.WellFormed :=
    (hg.select false).map fun _ => id
  refine moves_peekPosition.then fun position => moves_peek.then fun token => ?_
  split
  · exact makes_ending
  · exact makes_createTable hg
  · exact makes_dropTable
  · exact makes_delete hg
  · exact makes_insert hg
  · exact hquery
  · exact hquery
  · exact makes_update hg
  · exact makes_merge hg
  · exact makes_throw

end

end DialectDb.Grammar
