/-
Statements and the places of rows. On a valid store no statement fails
for a place that a row does not have. Assignments are resolved in the
scope of the row that they see, which is the row itself for UPDATE, the
row in the way and then the proposed one for an upsert, and the target
row and then the source row for MERGE, with NULLs for the target if there
is none.
-/
import DialectDb.Proofs.PlacedRows
import DialectDb.Proofs.SafeWriting

namespace DialectDb

open DialectDb.Action

variable {store : Store} {version : DialectVersion}

/-- What a query reads of a valid store. -/
theorem Store.Valid.context (h : store.Valid) : ({ store } : Context).Sound :=
  Context.Regular.sound ⟨h, fun _ hcte => absurd hcte List.not_mem_nil⟩ rfl

/-- The rows of a table, as a FROM clause has them. -/
def StoredTable.source (stored : StoredTable) : Source :=
  ⟨stored.table.scope, Rows.ofList stored.rows⟩

theorem StoredTable.Valid.source {stored : StoredTable} (h : stored.Valid) :
    stored.source.Sound := by
  refine ⟨Scope.sound_ofColumns _ _, Rows.haveWidth_ofList fun row hrow => ?_,
    Rows.failOnly_ofList _⟩
  exact (h.width row hrow).trans (stored.table.width_ofColumns _).symm

-- ============================================================== tables

theorem ColumnDefinition.placeSafe_table (name : String) (columns : List ColumnDefinition) :
    PlaceSafe (ColumnDefinition.table name columns) := by
  refine .bind (.mapM (Q := fun _ => True) fun d _ => ?_) fun _ _ _ => .ok _
  unfold column
  dsimp only
  split
  · refine .bind (placeSafe_evalConstant _) fun value _ _ => ?_
    exact .bind (Value.onRow_coerce _ _).onValues.placeSafe fun _ _ _ => .ok _
  · exact .ok _

namespace Table

variable (t : Table)

theorem placeSafe_validateColumn (before : List Column) (c : Column) :
    PlaceSafe (t.validateColumn before c) := by
  unfold validateColumn
  refine .guard trivial fun _ => .guard trivial fun _ => .guard trivial fun _ => ?_
  split
  · exact .ok _
  · refine .guard trivial fun _ => ?_
    exact .bind (Value.onRow_coerce _ _).onValues.placeSafe fun _ _ _ => .ok _

theorem placeSafe_validateColumns (before columns : List Column) :
    PlaceSafe (t.validateColumns before columns) := by
  induction columns generalizing before with
  | nil => exact .ok _
  | cons c rest ih => exact .bind (t.placeSafe_validateColumn before c) fun _ _ _ => ih _

theorem placeSafe_validate : PlaceSafe t.validate := by
  unfold validate
  refine .guard trivial fun _ => .guard trivial fun _ => ?_
  exact t.placeSafe_validateColumns [] t.columns

end Table

theorem Store.failsOnly_createTable (t : Table) :
    (createTable t).FailsOnly Error.NoPlace store := by
  unfold createTable
  refine failsOnly_lift_bind t.placeSafe_validate fun _ _ _ => failsOnly_get_bind ?_
  dsimp only
  split
  · exact .fail trivial
  · exact failsOnly_set _

theorem Store.failsOnly_dropTable (name : String) (ifExists : Bool) :
    (dropTable name ifExists).FailsOnly Error.NoPlace store := by
  unfold dropTable
  refine failsOnly_get_bind ?_
  dsimp only
  split
  · exact failsOnly_bind (failsOnly_set _) fun _ _ _ => failsOnly_pure _
  · split
    · exact failsOnly_pure _
    · exact .fail trivial

theorem Store.placeSafe_get (name : String) : PlaceSafe (store.get name) := by
  unfold get
  split
  · exact .ok _
  · exact .fail trivial

-- ==================================================== DELETE and UPDATE

/-- What writes on the copy of a table's rows, once it is known to fail
only for what values are. -/
theorem Store.failsOnly_of_onValues {α : Type} {name : String}
    {change : Table → Action (Array Row) α} {stored : StoredTable}
    (hget : store.get name = .ok stored) (h : (change stored.table).OnValues stored.rows.toArray) :
    (mutate name change).FailsOnly Error.NoPlace store :=
  failsOnly_mutate hget (OnValues.placeSafe h)

theorem StoredTable.mask_yields (hstore : store.Valid) {stored : StoredTable}
    (h : stored.Valid) (predicate : Option Expr) :
    Yields Error.NoPlace (fun mask => mask.length = stored.rows.length)
      (stored.mask store predicate) := by
  unfold mask
  split
  · exact .pure (List.length_map _)
  · next c hc =>
      refine Condition.mask_yields h.source.scope (fun row hrow => ?_) ?_
      · exact (h.width row hrow).trans (stored.table.width_ofColumns _).symm
      · exact Expr.condition?_yields predicate hstore.context c hc _ h.source.scope

theorem Delete.failsOnly_execute (d : Delete) (hstore : store.Valid) :
    d.execute.FailsOnly Error.NoPlace store := by
  unfold execute
  refine failsOnly_get_bind ?_
  refine failsOnly_lift_bind (Store.placeSafe_get _) fun stored hget _ => ?_
  have hvalid := hstore.tables _ (Store.get_mem hget)
  refine failsOnly_lift_bind (StoredTable.mask_yields hstore hvalid _) fun mask _ _ => ?_
  refine failsOnly_bind (Store.failsOnly_of_onValues hget ?_) fun _ _ _ => failsOnly_pure _
  exact failsOnly_get_bind (failsOnly_bind (failsOnly_set _) fun _ _ _ => failsOnly_pure _)

/-- The assignments of UPDATE see a row of the table. -/
theorem Update.assignments_yields (u : Update) (t : Table) :
    Yields Error.NoPlace (fun assignments => ∀ a ∈ assignments, a.Within t t.columns.length)
      (Assignment.resolveList t t.scope u.assignments) := by
  rw [← t.width_ofColumns t.name]
  exact Assignment.resolveList_yields (Scope.sound_ofColumns _ _) u.assignments

theorem selectedPlaces_lt {mask : List Bool} {index : Nat} (h : index ∈ selectedPlaces mask) :
    index < mask.length := by
  obtain ⟨⟨selected, place⟩, hmem, rfl⟩ := List.mem_map.mp h
  have hplace := List.mk_mem_zipIdx_iff_getElem?.mp (List.mem_of_mem_filter hmem)
  exact (List.getElem?_eq_some_iff.mp hplace).1

theorem Update.failsOnly_execute (u : Update) (hstore : store.Valid) :
    u.execute.FailsOnly Error.NoPlace store := by
  unfold execute
  refine failsOnly_get_bind ?_
  refine failsOnly_lift_bind (Store.placeSafe_get _) fun stored hget _ => ?_
  have hvalid := hstore.tables _ (Store.get_mem hget)
  refine failsOnly_lift_bind (u.assignments_yields _) fun assignments _ hassignments => ?_
  refine failsOnly_lift_bind (StoredTable.mask_yields hstore hvalid _) fun mask _ hmask => ?_
  refine failsOnly_bind (Store.failsOnly_of_onValues hget ?_) fun _ _ _ => failsOnly_pure _
  refine onValues_updateRows hassignments (fun index hindex => ?_) hvalid.holds
  show index < stored.rows.length
  rw [← hmask]
  exact selectedPlaces_lt hindex

-- ==================================================== INSERT and MERGE

namespace Insert

theorem placeSafe_values (i : Insert) (hstore : store.Valid) :
    PlaceSafe (i.values version store) := by
  unfold values
  split
  · next q _ => exact .bind (q.evaluate_yields version hstore) fun _ _ hanswer => hanswer.collect
  · refine (Yields.mapM (Q := fun _ => True) fun row _ => ?_).forget
    exact (Yields.mapM fun e _ => placeSafe_evalConstant e).forget

theorem placeSafe_buildRows (i : Insert) (t : Table) (places : List Nat) (rows : List Row) :
    PlaceSafe (i.buildRows t places rows) := by
  refine (Yields.mapM (Q := fun _ => True) fun values _ => ?_).forget
  refine .bind (placeSafe_checkValueCount _ _ _) fun _ _ _ => ?_
  exact (Table.onRow_buildRow _ _).onValues.placeSafe

theorem failsOnly_execute (i : Insert) (hstore : store.Valid) :
    (i.execute version).FailsOnly Error.NoPlace store := by
  unfold execute
  refine failsOnly_get_bind ?_
  refine failsOnly_lift_bind (Store.placeSafe_get _) fun stored hget _ => ?_
  refine failsOnly_lift_bind (stored.table.valuePlaces_yields _) fun places _ _ => ?_
  refine failsOnly_lift_bind (i.placeSafe_values hstore) fun values _ _ => ?_
  refine failsOnly_lift_bind (i.placeSafe_buildRows _ _ _) fun rows hrows _ => ?_
  refine failsOnly_lift_bind (i.resolution_yields stored.table) fun r _ hr => ?_
  refine failsOnly_bind (Store.failsOnly_of_onValues hget ?_) fun _ _ _ => failsOnly_pure _
  exact onValues_writeRows hr.2 (buildRows_holds hrows)
    (hstore.tables _ (Store.get_mem hget)).validRows

end Insert

namespace Merge

theorem placeSafe_sourceRows (source : MergeSource) (hstore : store.Valid) :
    PlaceSafe (sourceRows version store source) := by
  cases source with
  | table table =>
      exact .bind (hstore.context.regular.relation_yields table.name) fun _ _ _ => .ok _
  | query q aliasName =>
      refine .bind (q.evaluate_yields version hstore) fun answer _ hanswer => ?_
      exact .bind hanswer.collect fun _ _ _ => .ok _

/-- What MERGE has resolved before it looks at the first row, in the
scope of a target row and then a source row. -/
structure Prepared (m : Merge) (version : DialectVersion) (store : Store) (stored : StoredTable)
    (scope : Scope) (source : List Row) (predicate : Formula) (clauses : List Clause) : Prop where
  read : store.get m.target.name = .ok stored
  merged : ∃ sourceScope, sourceRows version store m.source = .ok (sourceScope, source) ∧
    (Scope.ofColumns m.target.label stored.table.columnNames).merge sourceScope = .ok scope
  predicate : scope.resolve m.predicate = .ok predicate
  clauses : resolveClauses stored.table scope m.clauses = .ok clauses

/-- The scope has the columns of the table and as many as the source rows
have values. -/
theorem Prepared.fits {m : Merge} {stored : StoredTable} {scope : Scope} {source : List Row}
    {predicate : Formula} {clauses : List Clause} (hstore : store.Valid)
    (h : m.Prepared version store stored scope source predicate clauses) :
    stored.Valid ∧ predicate.Within scope.width ∧
      (∀ c ∈ clauses, c.Within stored.table scope.width) ∧
      ∃ width, scope.width = stored.table.columns.length + width ∧
        ∀ row ∈ source, row.length = width := by
  obtain ⟨sourceScope, hsource, hscope⟩ := h.merged
  obtain ⟨hsound, hwidth⟩ := (scope_yields _ _ _).of_ok scope hscope
  refine ⟨hstore.tables _ (Store.get_mem h.read), ?_, ?_, sourceScope.width, hwidth, ?_⟩
  · exact (Scope.resolve_yields m.predicate hsound).of_ok _ h.predicate
  · exact (resolveClauses_yields _ hsound m.clauses).of_ok _ h.clauses
  · exact sourceRows_regular hstore hsource

theorem failsOnly_execute (m : Merge) (hstore : store.Valid) :
    (m.execute version).FailsOnly Error.NoPlace store := by
  unfold execute
  refine failsOnly_get_bind ?_
  refine failsOnly_lift_bind (placeSafe_sourceRows _ hstore) fun taken hsource _ => ?_
  obtain ⟨sourceScope, source⟩ := taken
  refine failsOnly_lift_bind (Store.placeSafe_get _) fun stored hget _ => ?_
  refine failsOnly_lift_bind (scope_yields stored.table _ _) fun scope hmerge ⟨hsound, _⟩ => ?_
  refine failsOnly_lift_bind (Scope.resolve_yields _ hsound) fun predicate hpredicate _ => ?_
  refine failsOnly_lift_bind (resolveClauses_yields _ hsound _) fun clauses hclauses _ => ?_
  have hprepared : m.Prepared version store stored scope source predicate clauses :=
    ⟨hget, ⟨sourceScope, hsource, hmerge⟩, hpredicate, hclauses⟩
  obtain ⟨hvalid, hwithin, hwithins, width, hwidth, hrows⟩ := hprepared.fits hstore
  rw [hwidth] at hwithin hwithins
  have hmerged : (mergeRows stored.table predicate clauses source).FailsOnly Error.OfClauses
      stored.rows.toArray := mergeRows_failsOnly hwithin hwithins hrows hvalid.holds
  exact failsOnly_bind (Store.failsOnly_mutate hget (Yields.weaken hmerged fun _ he => he.noPlace))
    fun _ _ _ => failsOnly_pure _

end Merge

-- ========================================================== statements

/-- No statement fails for a place that a row does not have. -/
theorem Statement.failsOnly_execute (s : Statement) (hstore : store.Valid) :
    (s.execute version).FailsOnly Error.NoPlace store := by
  cases s with
  | createTable name columns =>
      refine failsOnly_lift_bind (ColumnDefinition.placeSafe_table name columns) fun t _ _ => ?_
      exact failsOnly_bind (Store.failsOnly_createTable t) fun _ _ _ => failsOnly_pure _
  | dropTable name ifExists =>
      exact failsOnly_bind (Store.failsOnly_dropTable name ifExists) fun _ _ _ => failsOnly_pure _
  | select q =>
      refine failsOnly_get_bind (failsOnly_lift_bind (q.evaluate_yields version hstore) ?_)
      exact fun _ _ _ => failsOnly_pure _
  | insert i => exact failsOnly_map (i.failsOnly_execute hstore)
  | update u => exact failsOnly_map (u.failsOnly_execute hstore)
  | delete d => exact failsOnly_map (d.failsOnly_execute hstore)
  | merge m => exact failsOnly_map (m.failsOnly_execute hstore)

end DialectDb
