/-
Statements and the failures that are only guarded against. A statement
is ready when no placeholder is left in it and when the clauses of MERGE
insert iff they are for source rows without a match; what is read from a
text is, once it is bound. Of a ready statement no step fails for such a
thing, on whatever store: MERGE asks the clauses for matches and the
others separately, so each place that looks at a clause has only those
that are for it.
-/
import DialectDb.Proofs.GuardedRows
import DialectDb.Proofs.MadeStatements
import DialectDb.Proofs.SafeWriting
import DialectDb.Proofs.WholeTexts
import DialectDb.Execution
import DialectDb.Dialect.Catalog

namespace DialectDb

open DialectDb.Action

variable {store : Store} {version : DialectVersion}

namespace Action

/-- An action that does not fail for what is only guarded against, from
this state. -/
abbrev GuardSafe {σ α : Type} (x : Action σ α) (s : σ) : Prop :=
  x.FailsOnly Error.NoGuard s

/-- From any state, each step of a loop is safe, and so is the loop. -/
theorem guardSafe_forM {σ α : Type} {f : α → Action σ PUnit} {items : List α}
    (h : ∀ a ∈ items, ∀ s, (f a).GuardSafe s) (s : σ) : (items.forM f).GuardSafe s :=
  failsOnly_forM (I := fun _ => True) (fun a ha s _ => h a ha s)
    (fun _ _ _ _ _ _ _ => trivial) s trivial

theorem guardSafe_foldlM {σ α β : Type} {f : β → α → Action σ β} {items : List α}
    (h : ∀ a ∈ items, ∀ b s, (f b a).GuardSafe s) (b : β) (s : σ) :
    (items.foldlM f b).GuardSafe s :=
  failsOnly_foldlM (I := fun _ => True) (fun a ha b s _ => h a ha b s)
    (fun _ _ _ _ _ _ _ _ => trivial) b s trivial

end Action

-- ============================================================== tables

theorem ColumnDefinition.guardSafe_table (name : String) {columns : List ColumnDefinition}
    (h : ∀ c ∈ columns, ∀ e ∈ c.default, e.Closed) :
    GuardSafe (ColumnDefinition.table name columns) := by
  refine .bind (.mapM (Q := fun _ => True) fun d hd => ?_) fun _ _ _ => .ok _
  unfold column
  dsimp only
  split
  · next e he =>
      refine .bind (Scope.guardSafe_evalConstant (h d hd e he)) fun value _ _ => ?_
      exact .bind (Value.onRow_coerce _ _).prepares.guardSafe fun _ _ _ => .ok _
  · exact .ok _

namespace Table

variable (t : Table)

theorem guardSafe_validateColumn (before : List Column) (c : Column) :
    GuardSafe (t.validateColumn before c) := by
  unfold validateColumn
  refine .guard trivial fun _ => .guard trivial fun _ => .guard trivial fun _ => ?_
  split
  · exact .ok _
  · refine .guard trivial fun _ => ?_
    exact .bind (Value.onRow_coerce _ _).prepares.guardSafe fun _ _ _ => .ok _

theorem guardSafe_validate : GuardSafe t.validate := by
  have hcolumns (before columns : List Column) :
      GuardSafe (t.validateColumns before columns) := by
    induction columns generalizing before with
    | nil => exact .ok _
    | cons c rest ih => exact .bind (t.guardSafe_validateColumn before c) fun _ _ _ => ih _
  unfold validate
  exact .guard trivial fun _ => .guard trivial fun _ => hcolumns [] t.columns

theorem prepares_columnIndex (name : String) : Prepares (t.columnIndex name) := by
  unfold columnIndex
  split
  · exact .ok _
  · exact .fail trivial

theorem prepares_valuePlaces (columns : Option (List String)) :
    Prepares (t.valuePlaces columns) := by
  have hplaces (names : List String) (places : List Nat) : Prepares (t.places names places) := by
    induction names generalizing places with
    | nil => exact .ok _
    | cons name rest ih =>
        exact .bind (t.prepares_columnIndex name) fun _ _ _ => .guard trivial fun _ => ih _
  cases columns with
  | none => exact .ok _
  | some names => exact hplaces names []

/-- A row of another width than the table's is refused by name. -/
theorem prepares_normalizeRow (row : Row) : Prepares (t.normalizeRow row) :=
  .ite (fun _ => (onRow_normalizeValues _ _).prepares) fun _ => .fail trivial

end Table

theorem prepares_checkValueCount (columns : Option (List String)) (places count : Nat) :
    Prepares (checkValueCount columns places count) :=
  .ite (fun _ => .fail trivial) fun _ => .ok _

theorem Store.prepares_get (store : Store) (name : String) : Prepares (store.get name) := by
  unfold get
  split
  · exact .ok _
  · exact .fail trivial

theorem Store.guardSafe_createTable (t : Table) : (createTable t).GuardSafe store := by
  unfold createTable
  refine failsOnly_lift_bind t.guardSafe_validate fun _ _ _ => failsOnly_get_bind ?_
  dsimp only
  split
  · exact .fail trivial
  · exact failsOnly_set _

theorem Store.guardSafe_dropTable (name : String) (ifExists : Bool) :
    (dropTable name ifExists).GuardSafe store := by
  unfold dropTable
  refine failsOnly_get_bind ?_
  dsimp only
  split
  · exact failsOnly_bind (failsOnly_set _) fun _ _ _ => failsOnly_pure _
  · split
    · exact failsOnly_pure _
    · exact .fail trivial

-- ==================================================== DELETE and UPDATE

theorem StoredTable.guardSafe_mask (stored : StoredTable) (store : Store)
    {predicate : Option Expr} (h : ∀ e ∈ predicate, e.Closed) :
    GuardSafe (stored.mask store predicate) := by
  unfold mask
  split
  · exact .ok _
  · next c hc =>
      exact Condition.guardSafe_mask (Expr.condition?_guarded { store } predicate h c hc) _ _

theorem Delete.guardSafe_execute {d : Delete} (h : ∀ e ∈ d.predicate, e.Closed) :
    d.execute.GuardSafe store := by
  unfold execute
  refine failsOnly_get_bind ?_
  refine failsOnly_lift_bind (store.prepares_get _).guardSafe fun stored hget _ => ?_
  refine failsOnly_lift_bind (stored.guardSafe_mask store h) fun mask _ _ => ?_
  refine failsOnly_bind (Store.failsOnly_mutate hget ?_) fun _ _ _ => failsOnly_pure _
  exact failsOnly_get_bind (failsOnly_bind (failsOnly_set _) fun _ _ _ => failsOnly_pure _)

theorem Assignment.guardSafe_resolveList (t : Table) (scope : Scope)
    {assignments : List Assignment} (h : ∀ a ∈ assignments, a.value.Closed) :
    GuardSafe (resolveList t scope assignments) := by
  refine (Yields.mapM (Q := fun _ => True) fun a ha => ?_).forget
  refine .bind (t.prepares_columnIndex a.column).guardSafe fun _ _ _ => ?_
  exact .bind (Scope.guardSafe_resolve a.value (h a ha)) fun _ _ _ => .ok _

theorem PlaceAssignment.guardSafe_applyAll (input : Row) (assignments : List PlaceAssignment)
    (row : Row) : GuardSafe (applyAll input assignments row) := by
  induction assignments generalizing row with
  | nil => exact .ok row
  | cons a rest ih => exact .bind (Formula.guardSafe_eval _) fun _ _ _ => ih _

theorem guardSafe_updateRows (t : Table) (assignments : List PlaceAssignment)
    (places : List Nat) (rows : Array Row) : (updateRows t assignments places).GuardSafe rows := by
  have hrow (index : Nat) (rows : Array Row) :
      (updateRow t assignments index).GuardSafe rows := by
    unfold updateRow
    refine failsOnly_get_bind ?_
    refine failsOnly_lift_bind (PlaceAssignment.guardSafe_applyAll _ _ _) fun updated _ _ => ?_
    exact failsOnly_lift_bind (t.prepares_normalizeRow updated).guardSafe fun _ _ _ => .ok _
  unfold updateRows
  refine failsOnly_bind (guardSafe_forM (fun index _ => hrow index) rows) fun _ after _ => ?_
  exact failsOnly_get_bind (failsOnly_lift (Table.onValues_checkPlaces _ _).guardSafe)

theorem Update.guardSafe_execute {u : Update} (hassignments : ∀ a ∈ u.assignments, a.value.Closed)
    (h : ∀ e ∈ u.predicate, e.Closed) : u.execute.GuardSafe store := by
  unfold execute
  refine failsOnly_get_bind ?_
  refine failsOnly_lift_bind (store.prepares_get _).guardSafe fun stored hget _ => ?_
  refine failsOnly_lift_bind (Assignment.guardSafe_resolveList _ _ hassignments) fun _ _ _ => ?_
  refine failsOnly_lift_bind (stored.guardSafe_mask store h) fun mask _ _ => ?_
  refine failsOnly_bind (Store.failsOnly_mutate hget ?_) fun _ _ _ => failsOnly_pure _
  exact guardSafe_updateRows _ _ _ _

-- ============================================================== INSERT

namespace Insert

/-- INSERT without placeholders. -/
structure Closed (i : Insert) : Prop where
  rows : ∀ row ∈ i.rows, ∀ e ∈ row, e.Closed
  query : ∀ q ∈ i.query, q.Closed
  assignments : ∀ a ∈ i.assignments, a.value.Closed

variable {i : Insert}

theorem guardSafe_values (h : i.Closed) (version : DialectVersion) (store : Store) :
    GuardSafe (i.values version store) := by
  unfold values
  split
  · next q hq =>
      exact .bind (Select.evaluate_guarded (h.query q hq) version store) fun _ _ hanswer =>
        hanswer.collect
  · refine (Yields.mapM (Q := fun _ => True) fun row hrow => ?_).forget
    exact (Yields.mapM fun e he => Scope.guardSafe_evalConstant (h.rows row hrow e he)).forget

theorem prepares_buildRows (i : Insert) (t : Table) (places : List Nat) (rows : List Row) :
    Prepares (i.buildRows t places rows) := by
  refine (Yields.mapM (Q := fun _ => True) fun values _ => ?_).forget
  refine .bind (prepares_checkValueCount _ _ _) fun _ _ _ => ?_
  exact (Table.onRow_buildRow _ _).prepares

theorem guardSafe_resolution (h : i.Closed) (t : Table) : GuardSafe (i.resolution t) := by
  have hkeys : GuardSafe (i.conflictKeys t) := by
    refine .ite (fun _ => .ok _) fun _ => ?_
    refine .bind (.mapM (Q := fun _ => True) fun name _ => ?_) fun _ _ _ => .ok _
    exact (t.prepares_columnIndex name).guardSafe
  refine .bind hkeys fun keys _ _ => ?_
  refine .bind (Scope.prepares_merge _ _).guardSafe fun scope _ _ => ?_
  exact .bind (Assignment.guardSafe_resolveList t scope h.assignments) fun _ _ _ => .ok _

theorem guardSafe_upsertRow (t : Table) (assignments : List PlaceAssignment) (index : Nat)
    (proposed : Row) (rows : Array Row) :
    (upsertRow t assignments index proposed).GuardSafe rows := by
  unfold upsertRow
  refine failsOnly_get_bind ?_
  refine failsOnly_lift_bind (PlaceAssignment.guardSafe_applyAll _ _ _) fun updated _ _ => ?_
  refine failsOnly_lift_bind (t.prepares_normalizeRow updated).guardSafe fun normal _ _ => ?_
  exact failsOnly_lift_bind (Table.onValues_checkUnique _ _ _).guardSafe fun _ _ _ =>
    failsOnly_set _

theorem guardSafe_writeRow (t : Table) (r : Resolution) (row : Row) (rows : Array Row) :
    (writeRow t r row).GuardSafe rows := by
  have happend : (t.append row).GuardSafe rows :=
    Yields.weaken (Table.onValues_append row rows) fun _ he => he.noGuard
  unfold writeRow
  refine failsOnly_get_bind ?_
  split
  · split
    · exact failsOnly_pure 0
    · split
      · exact failsOnly_bind happend fun _ _ _ => failsOnly_pure 1
      · exact failsOnly_bind (guardSafe_upsertRow _ _ _ _ _) fun _ _ _ => failsOnly_pure 1
  · exact failsOnly_bind happend fun _ _ _ => failsOnly_pure 1

theorem guardSafe_execute (h : i.Closed) : (i.execute version).GuardSafe store := by
  unfold execute
  refine failsOnly_get_bind ?_
  refine failsOnly_lift_bind (store.prepares_get _).guardSafe fun stored hget _ => ?_
  refine failsOnly_lift_bind (stored.table.prepares_valuePlaces _).guardSafe fun places _ _ => ?_
  refine failsOnly_lift_bind (guardSafe_values h version store) fun values _ _ => ?_
  refine failsOnly_lift_bind (i.prepares_buildRows _ _ _).guardSafe fun rows _ _ => ?_
  refine failsOnly_lift_bind (guardSafe_resolution h stored.table) fun r _ _ => ?_
  refine failsOnly_bind (Store.failsOnly_mutate hget ?_) fun _ _ _ => failsOnly_pure _
  refine guardSafe_foldlM (fun row _ count rows => ?_) 0 _
  exact failsOnly_bind (guardSafe_writeRow _ _ row rows) fun _ _ _ => failsOnly_pure _

end Insert

-- =============================================================== MERGE

namespace Merge

/-- MERGE without placeholders, whose clauses insert iff they are for
source rows without a match. -/
structure Ready (m : Merge) : Prop where
  source : m.source.placeholders = []
  predicate : m.predicate.Closed
  clauses : ∀ c ∈ m.clauses, c.placeholders = []
  inserts : ∀ c ∈ m.clauses, c.action.isInsert = !c.matched

theorem guardSafe_sourceRows {source : MergeSource} (h : source.placeholders = [])
    (version : DialectVersion) (store : Store) :
    GuardSafe (sourceRows version store source) := by
  cases source with
  | table table => exact .bind (Context.guardSafe_relation _ _) fun _ _ _ => .ok _
  | query q aliasName =>
      refine .bind (Select.evaluate_guarded h version store) fun answer _ hanswer => ?_
      exact .bind hanswer.collect fun _ _ _ => .ok _

def ClauseAction.isInsert : ClauseAction → Bool
  | insert _ _ => true
  | update _ | delete => false

theorem resolveAction_guarded (t : Table) (scope : Scope) {action : MergeAction}
    (h : action.placeholders = []) :
    Yields Error.NoGuard (·.isInsert = action.isInsert) (resolveAction t scope action) := by
  cases action with
  | update assignments =>
      have hclosed : ∀ a ∈ assignments, a.value.Closed := List.flatMap_eq_nil_iff.mp h
      exact .bind (Assignment.guardSafe_resolveList t scope hclosed) fun _ _ _ => .pure rfl
  | delete => exact .pure rfl
  | insert columns values =>
      refine .bind (t.prepares_valuePlaces columns).guardSafe fun places _ _ => ?_
      refine .bind (prepares_checkValueCount _ _ _).guardSafe fun _ _ _ => ?_
      have hclosed := (Expr.placeholdersOfList_eq_nil values).mp h
      exact .bind (Scope.guardSafe_resolveList values hclosed) fun _ _ _ => .pure rfl

theorem resolveClauses_guarded (t : Table) (scope : Scope) {clauses : List MergeClause}
    (hclosed : ∀ c ∈ clauses, c.placeholders = [])
    (hinserts : ∀ c ∈ clauses, c.action.isInsert = !c.matched) :
    Yields Error.NoGuard (fun resolved => ∀ c ∈ resolved, c.action.isInsert = !c.matched)
      (resolveClauses t scope clauses) := by
  refine .mapM fun c hc => ?_
  obtain ⟨hcondition, haction⟩ := List.append_eq_nil_iff.mp (hclosed c hc)
  rw [Expr.placeholdersOfOption_eq_nil] at hcondition
  refine .bind (.optionMapM (Q := fun _ => True) fun e he => ?_) fun condition _ _ => ?_
  · exact Scope.guardSafe_resolve e (hcondition e he)
  · refine .bind (resolveAction_guarded t scope haction) fun action _ hsame => .pure ?_
    exact hsame.trans (hinserts c hc)

/-- A clause that applies is one of the clauses. -/
theorem firstApplicable_guarded (input : Row) (clauses : List Clause) :
    Yields Error.NoGuard (fun action => ∀ a ∈ action, ∃ c ∈ clauses, c.action = a)
      (firstApplicable input clauses) := by
  induction clauses with
  | nil => exact .pure fun _ => nofun
  | cons c rest ih =>
      refine .bind (Formula.guardSafe_holds c.condition) fun holds _ _ => .ite (fun _ => ?_) ?_
      · exact .pure fun _ ha => ⟨c, List.mem_cons_self, Option.mem_some.mp ha⟩
      · refine fun _ => ih.mono fun action _ haction a ha => ?_
        obtain ⟨c', hc', rfl⟩ := haction a ha
        exact ⟨c', List.mem_cons_of_mem c hc', rfl⟩

variable {clauses : List Clause}

/-- Of fitting clauses, those for matches insert nothing. -/
theorem applicable_matched (h : ∀ c ∈ clauses, c.action.isInsert = !c.matched) (input : Row) :
    Yields Error.NoGuard (fun action => ∀ a ∈ action, a.isInsert = false)
      (firstApplicable input (clauses.filter (·.matched))) := by
  refine (firstApplicable_guarded input _).mono fun action _ haction a ha => ?_
  obtain ⟨c, hc, rfl⟩ := haction a ha
  obtain ⟨hmem, hmatched⟩ := List.mem_filter.mp hc
  rw [h c hmem, hmatched]
  rfl

/-- And the others do nothing but insert. -/
theorem applicable_unmatched (h : ∀ c ∈ clauses, c.action.isInsert = !c.matched) (input : Row) :
    Yields Error.NoGuard (fun action => ∀ a ∈ action, a.isInsert = true)
      (firstApplicable input (clauses.filter (!·.matched))) := by
  refine (firstApplicable_guarded input _).mono fun action _ haction a ha => ?_
  obtain ⟨c, hc, rfl⟩ := haction a ha
  obtain ⟨hmem, hmatched⟩ := List.mem_filter.mp hc
  rw [h c hmem, hmatched]

theorem guardSafe_fateOf (t : Table) (target input : Row) {action : Option ClauseAction}
    (h : ∀ a ∈ action, a.isInsert = false) : GuardSafe (fateOf t target input action) := by
  unfold fateOf
  split
  · exact .ok _
  · refine .bind (PlaceAssignment.guardSafe_applyAll _ _ _) fun row _ _ => ?_
    exact .bind (t.prepares_normalizeRow row).guardSafe fun _ _ _ => .ok _
  · exact .ok _
  · exact absurd (h _ rfl) nofun

variable (t : Table) (predicate : Formula)

theorem guardSafe_matchTargets (h : ∀ c ∈ clauses, c.action.isInsert = !c.matched) (source : Row)
    (targets : List Target) :
    GuardSafe (matchTargets t predicate (clauses.filter (·.matched)) source targets) := by
  induction targets with
  | nil => exact .ok _
  | cons target rest ih =>
      refine .bind (Formula.guardSafe_holds _) fun holds _ _ => .ite (fun _ => ?_) fun _ => ?_
      · split
        · refine .bind (applicable_matched h _) fun action _ haction => ?_
          refine .bind (guardSafe_fateOf t _ _ haction) fun fate _ _ => ?_
          exact .bind ih fun _ _ _ => .ok _
        · exact .fail trivial
      · exact .bind ih fun _ _ _ => .ok _

theorem guardSafe_insertion (h : ∀ c ∈ clauses, c.action.isInsert = !c.matched) (source : Row) :
    GuardSafe (insertion t (clauses.filter (!·.matched)) source) := by
  refine .bind (applicable_unmatched h _) fun action _ haction => ?_
  cases action with
  | none => exact .ok _
  | some action =>
      cases action with
      | insert places values =>
          refine .bind (Formula.guardSafe_evalList _) fun values _ _ => ?_
          exact .bind (Table.onRow_buildRow _ _).prepares.guardSafe fun _ _ _ => .ok _
      | update _ | delete => exact absurd (haction _ rfl) nofun

theorem guardSafe_mergeRows (h : ∀ c ∈ clauses, c.action.isInsert = !c.matched)
    (source : List Row) (rows : Array Row) :
    (mergeRows t predicate clauses source).GuardSafe rows := by
  have hsources (p : Progress) : GuardSafe (takeSources t predicate clauses p source) := by
    refine .foldlM (fun row _ p _ => ?_) trivial
    refine .bind (guardSafe_matchTargets t predicate h row p.targets) fun found _ _ => ?_
    refine .ite (fun _ => .ok _) fun _ => ?_
    exact .bind (guardSafe_insertion t h row) fun _ _ _ => .ok _
  unfold mergeRows
  refine failsOnly_get_bind (failsOnly_lift_bind (hsources _) fun p _ _ => ?_)
  refine failsOnly_lift_bind (Table.onValues_checkPlaces _ _).guardSafe fun _ _ _ => ?_
  exact failsOnly_bind (failsOnly_set _) fun _ _ _ => failsOnly_pure _

theorem guardSafe_execute {m : Merge} (h : m.Ready) : (m.execute version).GuardSafe store := by
  unfold execute
  refine failsOnly_get_bind ?_
  refine failsOnly_lift_bind (guardSafe_sourceRows h.source version store) fun taken _ _ => ?_
  obtain ⟨sourceScope, source⟩ := taken
  refine failsOnly_lift_bind (store.prepares_get _).guardSafe fun stored hget _ => ?_
  refine failsOnly_lift_bind (Scope.prepares_merge _ _).guardSafe fun scope _ _ => ?_
  refine failsOnly_lift_bind (Scope.guardSafe_resolve _ h.predicate) fun predicate _ _ => ?_
  have hclauses := resolveClauses_guarded stored.table scope h.clauses h.inserts
  refine failsOnly_lift_bind hclauses fun clauses _ hinserts => ?_
  refine failsOnly_bind (Store.failsOnly_mutate hget ?_) fun _ _ _ => failsOnly_pure _
  exact guardSafe_mergeRows _ _ hinserts _ _

end Merge

-- ========================================================== statements

namespace Statement

/-- A statement that can be executed: it has no placeholders, and the
clauses of MERGE insert iff they are for source rows without a match. -/
structure Ready (s : Statement) : Prop where
  closed : s.placeholders = []
  inserts : ∀ m, s = .merge m → ∀ c ∈ m.clauses, c.action.isInsert = !c.matched

/-- No failure that is only guarded against, neither of the statement nor
of a row of the answer it gives. -/
structure NeverGuards (version : DialectVersion) (store : Store) (s : Statement) : Prop where
  effect : (s.execute version).GuardSafe store
  rows : ∀ answer after, (s.execute version).perform store = (.ok (.answer answer), after) →
    answer.GuardSafe

/-- A statement that is no query gives no answer. -/
theorem rows_of_effect {x : Action Store Effect} {answer : Answer} {after : Store}
    (h : (Outcome.effect <$> x).perform store = (.ok (.answer answer), after)) : False := by
  rw [perform_map] at h
  obtain ⟨effect, -, heffect⟩ := Result.map_eq_ok.mp (congrArg Prod.fst h)
  cases heffect

theorem Ready.neverGuards {s : Statement} (h : s.Ready) (version : DialectVersion)
    (store : Store) : s.NeverGuards version store := by
  obtain ⟨hclosed, hinserts⟩ := h
  cases s with
  | createTable name columns =>
      have hdefaults : ∀ c ∈ columns, ∀ e ∈ c.default, e.Closed := fun c hc =>
        (Expr.placeholdersOfOption_eq_nil c.default).mp (List.flatMap_eq_nil_iff.mp hclosed c hc)
      refine ⟨?_, fun answer after hperform => ?_⟩
      · refine failsOnly_lift_bind (ColumnDefinition.guardSafe_table name hdefaults) fun t _ _ => ?_
        exact failsOnly_bind (Store.guardSafe_createTable t) fun _ _ _ => failsOnly_pure _
      · obtain ⟨t, -, hperform⟩ := perform_lift_bind_eq_ok.mp hperform
        obtain ⟨_, _, -, hpure⟩ := perform_bind_eq_ok.mp hperform
        cases hpure
  | dropTable name ifExists =>
      refine ⟨?_, fun answer after hperform => ?_⟩
      · exact failsOnly_bind (Store.guardSafe_dropTable name ifExists) fun _ _ _ =>
          failsOnly_pure _
      · obtain ⟨_, _, -, hpure⟩ := perform_bind_eq_ok.mp hperform
        cases hpure
  | select q =>
      have hanswer := Select.evaluate_guarded (q := q) hclosed version store
      refine ⟨failsOnly_get_bind (failsOnly_lift_bind hanswer fun _ _ _ => failsOnly_pure _), ?_⟩
      intro answer after hperform
      unfold execute at hperform
      rw [perform_get_bind] at hperform
      obtain ⟨answer', heval, hpure⟩ := perform_lift_bind_eq_ok.mp hperform
      cases hpure
      exact hanswer.of_ok _ heval
  | insert i =>
      obtain ⟨hrows, hrest⟩ := List.append_eq_nil_iff.mp hclosed
      obtain ⟨hquery, hassignments⟩ := List.append_eq_nil_iff.mp hrest
      have hi : i.Closed := by
        refine ⟨fun row hrow => ?_, fun q hq => ?_, List.flatMap_eq_nil_iff.mp hassignments⟩
        · exact (Expr.placeholdersOfList_eq_nil row).mp (List.flatMap_eq_nil_iff.mp hrows row hrow)
        · rw [Option.mem_def.mp hq] at hquery
          exact hquery
      exact ⟨failsOnly_map (Insert.guardSafe_execute hi), fun _ _ h => (rows_of_effect h).elim⟩
  | update u =>
      obtain ⟨hassignments, hpredicate⟩ := List.append_eq_nil_iff.mp hclosed
      have hpredicate := (Expr.placeholdersOfOption_eq_nil u.predicate).mp hpredicate
      have hassignments := List.flatMap_eq_nil_iff.mp hassignments
      refine ⟨failsOnly_map ?_, fun _ _ h => (rows_of_effect h).elim⟩
      exact Update.guardSafe_execute hassignments hpredicate
  | delete d =>
      have hpredicate := (Expr.placeholdersOfOption_eq_nil d.predicate).mp hclosed
      refine ⟨failsOnly_map ?_, fun _ _ h => (rows_of_effect h).elim⟩
      exact Delete.guardSafe_execute hpredicate
  | merge m =>
      obtain ⟨hsource, hrest⟩ := List.append_eq_nil_iff.mp hclosed
      obtain ⟨hpredicate, hclauses⟩ := List.append_eq_nil_iff.mp hrest
      have hm : m.Ready :=
        ⟨hsource, hpredicate, List.flatMap_eq_nil_iff.mp hclauses, hinserts m rfl⟩
      exact ⟨failsOnly_map (Merge.guardSafe_execute hm), fun _ _ h => (rows_of_effect h).elim⟩

-- ======================================================= read and bound

/-- To bind a clause changes neither what it is for nor what kind of
thing it does. -/
theorem inserts_of_bind {ps : Parameters} {c bound : MergeClause} (h : c.bind ps = .ok bound) :
    bound.matched = c.matched ∧ bound.action.isInsert = c.action.isInsert := by
  obtain ⟨condition, -, h⟩ := Result.bind_eq_ok.mp h
  obtain ⟨action, haction, h⟩ := Result.bind_eq_ok.mp h
  cases h
  refine ⟨rfl, ?_⟩
  cases hkind : c.action <;> rw [hkind] at haction
  case delete =>
    cases haction
    rfl
  all_goals
    obtain ⟨_, -, haction⟩ := Result.bind_eq_ok.mp haction
    cases haction
    rfl

theorem WellFormed.ready {s bound : Statement} (h : s.WellFormed) {ps : Parameters}
    (hbind : s.bind ps = .ok bound) : bound.Ready := by
  refine ⟨(s.givesClosed_bind ps).of_ok bound hbind, fun m hm => ?_⟩
  subst hm
  cases s with
  | merge unbound =>
      obtain ⟨source, -, hbind⟩ := Result.bind_eq_ok.mp hbind
      obtain ⟨predicate, -, hbind⟩ := Result.bind_eq_ok.mp hbind
      obtain ⟨clauses, hclauses, hbind⟩ := Result.bind_eq_ok.mp hbind
      cases hbind
      have hkeeps : ∀ c ∈ unbound.clauses, Yields (fun _ => True)
          (fun c : MergeClause => c.action.isInsert = !c.matched) (c.bind ps) := by
        refine fun c hc => ⟨fun bound hbound => ?_, fun _ _ => trivial⟩
        obtain ⟨hmatched, haction⟩ := inserts_of_bind hbound
        rw [hmatched, haction]
        exact (h.clauses c hc).inserts
      exact (Yields.mapM hkeeps).of_ok clauses hclauses
  | dropTable name ifExists => cases hbind
  | createTable name columns =>
      obtain ⟨_, -, hbind⟩ := Result.bind_eq_ok.mp hbind
      cases hbind
  | select q =>
      obtain ⟨_, -, hbind⟩ := Result.bind_eq_ok.mp hbind
      cases hbind
  | delete d =>
      obtain ⟨_, -, hbind⟩ := Result.bind_eq_ok.mp hbind
      cases hbind
  | update u =>
      obtain ⟨_, -, hbind⟩ := Result.bind_eq_ok.mp hbind
      obtain ⟨_, -, hbind⟩ := Result.bind_eq_ok.mp hbind
      cases hbind
  | insert i =>
      obtain ⟨_, -, hbind⟩ := Result.bind_eq_ok.mp hbind
      obtain ⟨_, -, hbind⟩ := Result.bind_eq_ok.mp hbind
      obtain ⟨_, -, hbind⟩ := Result.bind_eq_ok.mp hbind
      cases hbind

/-- What is read is well-formed, at every depth, and behind IS there is
no other operand than NULL. So when a statement that was read has been
bound, no execution on any store, and no row that is read of its answer,
fails for a placeholder that is left or for a clause of MERGE that does
not fit. -/
theorem parse_well_formed (version : DialectVersion) (text : String) :
    (∀ s, parse version text = .ok s → s.WellFormed) ∧
    (∀ g, Grammar.ReadsIsNull g) ∧
    ∀ s, parse version text = .ok s → ∀ (ps : Parameters) (bound : Statement),
      s.bind ps = .ok bound → ∀ (executor : DialectVersion) (store : Store),
        bound.NeverGuards executor store := by
  have hread (s : Statement) (h : parse version text = .ok s) : s.WellFormed := by
    obtain ⟨⟨s, c⟩, hperform, hpure⟩ := Result.bind_eq_ok.mp h
    cases hpure
    obtain ⟨-, behind, hstatement, -⟩ := Grammar.perform_wholeStatement hperform
    exact (Grammar.makes_statement (Grammar.makesWellFormed_ofDepth _) _ _ _ _ rfl hstatement).1
  refine ⟨hread, Grammar.readsIsNull, fun s h ps bound hbind executor store => ?_⟩
  exact ((hread s h).ready hbind).neverGuards executor store

/-- So MERGE with a placeholder can be executed once it has been
bound. -/
theorem parse_well_formed_merge :
    let text := "MERGE INTO t USING u ON t.a = u.a WHEN NOT MATCHED THEN INSERT VALUES (@n)"
    ∃ s bound, parse ⟨.db2, 11⟩ text = .ok s ∧ s.WellFormed ∧
      s.bind [{ name := "n", value := .integer 7 }] = .ok bound ∧
      bound.NeverGuards ⟨.db2, 11⟩ {} := by
  intro text
  have hreads : (do
      let s ← parse ⟨.db2, 11⟩ text
      placeholders <$> s.bind [{ name := "n", value := .integer 7 }]) = .ok [] := by
    decide +kernel
  obtain ⟨s, hparse, hbinds⟩ := Result.bind_eq_ok.mp hreads
  obtain ⟨bound, hbind, -⟩ := Result.map_eq_ok.mp hbinds
  obtain ⟨hwellFormed, -, hsafe⟩ := parse_well_formed ⟨.db2, 11⟩ text
  refine ⟨s, bound, hparse, hwellFormed s hparse, hbind, ?_⟩
  exact hsafe s hparse _ bound hbind ⟨.db2, 11⟩ {}

end Statement

end DialectDb
