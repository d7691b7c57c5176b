/-
WHERE selects the same rows in SELECT, DELETE and UPDATE. It judges every
row by itself, on the store as it was before the statement, so each of
the three goes by one and the same choice of rows. A query reads them
lazily, or all at once if there are subqueries, and DELETE and UPDATE go
by a mask; these are ways to compute that choice, and they fail alike.
-/
import DialectDb.Dialect.Catalog
import DialectDb.Proofs.Answers
import DialectDb.Proofs.Validity
import DialectDb.Proofs.Writing

namespace DialectDb

open DialectDb.Action

variable {store : Store} {stored : StoredTable} {rows : List Row}

-- =============================================================== masks

/-- A mask that is computed row by row marks a row for what it is, not
for where it stands. -/
theorem Result.mask_eq_map {f : Row → Result Bool} {mask : List Bool}
    (h : rows.mapM f = .ok mask) : ∃ keep : Row → Bool, mask = rows.map keep := by
  refine ⟨fun row => (f row).toOption.getD false, ?_⟩
  have hall := mapM_eq_ok.mp h
  clear h
  induction hall with
  | nil => rfl
  | cons hfirst _ ih => rw [List.map_cons, hfirst, ← ih]; rfl

theorem Condition.mask_eq_map {c : Condition} {scope : Scope} {mask : List Bool}
    (h : c.mask scope rows = .ok mask) : ∃ keep : Row → Bool, mask = rows.map keep := by
  unfold Condition.mask at h
  split at h
  · obtain ⟨_, -, h⟩ := Result.bind_eq_ok.mp h
    exact Result.mask_eq_map h
  · obtain ⟨_, -, h⟩ := Result.bind_eq_ok.mp h
    exact Result.mask_eq_map h

theorem StoredTable.mask_eq_map {predicate : Option Expr} {mask : List Bool}
    (h : stored.mask store predicate = .ok mask) :
    ∃ keep : Row → Bool, mask = stored.rows.map keep := by
  unfold StoredTable.mask at h
  split at h
  · cases h
    exact ⟨fun _ => true, rfl⟩
  · exact Condition.mask_eq_map h

theorem Rows.marked_map (rows : List Row) (keep : Row → Bool) :
    marked rows (rows.map keep) = rows.filter keep := by
  induction rows with
  | nil => rfl
  | cons row rows ih => rw [List.map_cons, marked_cons, ih, List.filter_cons]

-- ============================================================== SELECT

/-- `SELECT * FROM table`, with a WHERE clause or without. -/
def Select.allWhere (table : String) (predicate : Option Expr) : Select where
  ctes := []
  distinct := false
  columns := [⟨.all, none⟩]
  source := some ⟨table, none, []⟩
  joins := []
  predicate
  groupBy := []
  having := none
  unions := []
  orderBy := []
  offset := none
  limit := none
  queryHints := []

/-- A row is the values at its places. -/
theorem Formula.evalList_columns (row : Row) :
    evalList row ((List.range row.length).map .column) = .ok row := by
  have hmapM : ∀ es, evalList row es = es.mapM (eval row) := by
    intro es
    induction es with
    | nil => rfl
    | cons e es ih => rw [evalList, ih, List.mapM_cons]
  rw [hmapM, Result.mapM_eq_ok, List.forall₂_map_left_iff, List.forall₂_iff_get]
  refine ⟨List.length_range, fun i hi hi' => ?_⟩
  simp [eval, hi']

/-- A table under its own name has in a query the columns that it has in
DELETE and UPDATE. -/
theorem Source.ofClause_table (hget : store.get stored.table.name = .ok stored) :
    ofClause { store } (some ⟨stored.table.name, none, []⟩) [] =
      .ok ⟨stored.table.scope, Rows.ofList stored.rows⟩ := by
  have hfind : store.find? stored.table.name = some stored := by
    unfold Store.get at hget
    split at hget <;> cases hget
    assumption
  have hrelation : ({ store } : Context).relation stored.table.name =
      .ok ⟨stored.table.columnNames, stored.rows⟩ := by
    simp only [Context.relation, List.reverse_nil, List.find?_nil, hfind]
    rfl
  simp only [ofClause, first, hrelation]
  rfl

namespace Select

/-- What WHERE leaves of a table, read to the end, are the rows that its
mask marks, or the failure of that. -/
theorem filtered_collect (store : Store) (stored : StoredTable) (predicate : Option Expr) :
    (do (← filtered (Expr.condition? { store } predicate)
        ⟨stored.table.scope, Rows.ofList stored.rows⟩).rows.collect) =
      Rows.marked stored.rows <$> stored.mask store predicate := by
  cases predicate with
  | none =>
      have hall := Rows.marked_map stored.rows fun _ => true
      simp only [filtered, Expr.condition?, StoredTable.mask, Result.ok_bind, Rows.collect_ofList,
        Result.map_ok, hall, List.filter_true]
  | some e =>
      simp only [filtered, Expr.condition?, StoredTable.mask, Condition.select]
      split
      · simp only [Rows.collect_ofList, Result.ok_bind]
        cases Condition.mask _ stored.table.scope stored.rows with
        | error e => rfl
        | ok mask => exact Rows.collect_ofList _
      · next hplain => simp [Condition.mask, hplain, Rows.collect_filter_ofList]

theorem mem_of_mem_filtered {condition : Option Condition} {scope : Scope} {passed : Source}
    (h : filtered condition ⟨scope, Rows.ofList rows⟩ = .ok passed) {row : Row}
    (hrow : .ok row ∈ passed.rows.toList) : row ∈ rows := by
  cases condition with
  | none =>
      cases h
      simpa using hrow
  | some c =>
      obtain ⟨selected, hselect, h⟩ := Result.bind_eq_ok.mp h
      cases h
      unfold Condition.select at hselect
      split at hselect
      · simp only [Rows.collect_ofList, Result.ok_bind] at hselect
        obtain ⟨mask, -, hselect⟩ := Result.bind_eq_ok.mp hselect
        cases hselect
        exact Rows.marked_subset rows mask (by simpa [Rows.marked] using hrow)
      · obtain ⟨formula, -, hselect⟩ := Result.bind_eq_ok.mp hselect
        cases hselect
        exact Rows.mem_of_mem_filter_ofList hrow

/-- A star gives the columns that there are, each with the values at its
place. -/
theorem output_allWhere (table : String) (predicate : Option Expr) (source : Source) :
    (allWhere table predicate).output [] source = .ok
      ⟨source.scope.labels.map Label.columnName,
        source.rows.project ((List.range source.scope.width).map .column)⟩ := by
  have hformulas : source.scope.labels.zipIdx.map (fun p => Formula.column p.2) =
      (List.range source.scope.width).map .column := by
    have hplaces := List.zipIdx_map_snd 0 source.scope.labels
    rw [← List.range_eq_range'] at hplaces
    rw [Scope.width, ← Scope.labels, ← hplaces, List.map_map]
    rfl
  have hnames : source.scope.labels.zipIdx.map (fun p => p.1.columnName) =
      source.scope.labels.map Label.columnName := by
    have hlabels := List.zipIdx_map_fst 0 source.scope.labels
    conv_rhs => rw [← hlabels, List.map_map]
    rfl
  have hplain : Expr.all.containsAggregate = false := rfl
  simp [output, kept, allWhere, outputColumns, orderKeys, orderRows, isGrouped, hplain,
    Function.comp_def, hformulas, hnames]

/-- `SELECT * FROM table WHERE predicate`, read to the end, gives the
rows of the table that DELETE and UPDATE would mark, or fails as they
do. -/
theorem rows_allWhere (version : DialectVersion)
    (hget : store.get stored.table.name = .ok stored)
    (hwidth : ∀ row ∈ stored.rows, row.length = stored.table.columns.length)
    (predicate : Option Expr) :
    (do (← (allWhere stored.table.name predicate).evaluate version store).rows.collect) =
      Rows.marked stored.rows <$> stored.mask store predicate := by
  have hevaluate : (allWhere stored.table.name predicate).evaluate version store =
      filtered (Expr.condition? { store } predicate)
        ⟨stored.table.scope, Rows.ofList stored.rows⟩ >>=
      (allWhere stored.table.name predicate).output [] := by
    show Select.answer { store } (allWhere stored.table.name predicate) = _
    rw [answer_single rfl rfl rfl rfl, coreAnswer, allWhere, Source.ofClause_table hget]
    rfl
  rw [← filtered_collect, hevaluate, bind_assoc]
  refine Result.bind_congr_ok fun passed hpassed => ?_
  rw [output_allWhere, Result.ok_bind]
  refine Rows.collect_project_of_self fun row hrow => ?_
  have hrowWidth : row.length = passed.scope.width := by
    rw [filtered_scope hpassed, hwidth row (mem_of_mem_filtered hpassed hrow)]
    simp [Scope.width, Table.scope, Table.columnNames, Scope.ofColumns, Scope.ofLabels]
  rw [← hrowWidth]
  exact Formula.evalList_columns row

end Select

/-- The rows that `SELECT * FROM table WHERE predicate` gives. -/
def Store.rowsWhere (store : Store) (version : DialectVersion) (table : String)
    (predicate : Option Expr) : Result (List Row) :=
  Prod.snd <$> (Select.allWhere table predicate).readAll version store

theorem Store.rowsWhere_eq (version : DialectVersion) (hvalid : store.Valid)
    (hget : store.get stored.table.name = .ok stored) (predicate : Option Expr) :
    store.rowsWhere version stored.table.name predicate =
      Rows.marked stored.rows <$> stored.mask store predicate := by
  have hwidth := (hvalid.tables _ (Store.get_mem hget)).width
  rw [← Select.rows_allWhere version hget hwidth, rowsWhere, Select.readAll_eq]
  cases (Select.allWhere stored.table.name predicate).evaluate version store with
  | error e => rfl
  | ok answer =>
      rw [Result.ok_bind, Result.ok_bind]
      cases answer.rows.collect <;> rfl

-- ============================================================== DELETE

/-- What a change makes of the rows of a table takes their place only if
it succeeds. -/
theorem Store.perform_mutate {α : Type} {name : String} (change : Table → Action (Array Row) α)
    (hget : store.get name = .ok stored) :
    (mutate name change).perform store =
      match (change stored.table).perform stored.rows.toArray with
      | (.ok a, rows) => (.ok a, store.setRows (keyOf name) rows.toList)
      | (.error e, _) => (.error e, store) := by
  unfold mutate
  refine (perform_get_bind _ store).trans ?_
  rw [perform_lift_bind, hget]
  dsimp only
  rw [perform_lift_bind]
  rcases (change stored.table).perform stored.rows.toArray with ⟨_ | a, rows⟩ <;> rfl

/-- A change of a table's rows succeeds iff it does on the copy. -/
theorem Store.perform_mutate_eq_ok {α : Type} {change : Table → Action (Array Row) α} {a : α}
    {name : String} {after : Store} (hget : store.get name = .ok stored) :
    (mutate name change).perform store = (.ok a, after) ↔
      ∃ rows, (change stored.table).perform stored.rows.toArray = (.ok a, rows) ∧
        after = store.setRows (keyOf name) rows.toList := by
  rw [perform_mutate change hget]
  rcases (change stored.table).perform stored.rows.toArray with ⟨_ | b, changed⟩
  · simp
  · simp [eq_comm]

/-- DELETE leaves the rows that its mask does not mark, or fails with
it. -/
theorem Delete.perform_execute {predicate : Option Expr}
    (hget : store.get stored.table.name = .ok stored) :
    (Delete.execute ⟨stored.table.name, predicate⟩).perform store =
      match stored.mask store predicate with
      | .ok mask => (.ok (.deleted (deleteRows mask stored.rows).1),
          store.setRows (Store.keyOf stored.table.name) (deleteRows mask stored.rows).2)
      | .error e => (.error e, store) := by
  unfold Delete.execute
  rw [perform_get_bind, perform_lift_bind, hget]
  dsimp only
  rw [perform_lift_bind]
  cases stored.mask store predicate with
  | error e => rfl
  | ok mask =>
      dsimp only
      rw [perform_bind, Store.perform_mutate _ hget]
      rfl

theorem deleteRows_map (rows : List Row) (keep : Row → Bool) :
    deleteRows (rows.map keep) rows =
      ((rows.filter keep).length, rows.filter fun row => !keep row) := by
  induction rows with
  | nil => rfl
  | cons row rows ih =>
      obtain ⟨hcount, hrows⟩ := Prod.ext_iff.mp ih
      simp only [deleteRows] at hcount hrows
      cases hkeep : keep row <;> simp [deleteRows, hkeep, hcount, hrows]

-- ============================================================== UPDATE

/-- Updates change no row at other places. -/
theorem updateRows_others (t : Table) (assignments : List PlaceAssignment) (places : List Nat)
    (rows : Array Row) :
    (updateRows t assignments places).Ensures rows fun _ after =>
      after.size = rows.size ∧ ∀ i, i ∉ places → after.toList[i]? = rows.toList[i]? := by
  unfold updateRows
  have hloop : (places.forM (updateRow t assignments)).Ensures rows fun _ after =>
      after.size = rows.size ∧ ∀ i, i ∉ places → after.toList[i]? = rows.toList[i]? := by
    refine ensures_forM (fun index hindex current hcurrent => ?_) rows ⟨rfl, fun _ _ => rfl⟩
    refine (updateRow_ensures assignments index current).mono fun _ after hafter => ?_
    obtain ⟨row, -, rfl⟩ := hafter
    refine ⟨by rw [Array.size_setIfInBounds, hcurrent.1], fun i hi => ?_⟩
    have hne : index ≠ i := fun heq => hi (heq ▸ hindex)
    rw [Array.toList_setIfInBounds, List.getElem?_set_ne hne]
    exact hcurrent.2 i hi
  refine ensures_bind (hloop.mono fun _ after hafter => ?_)
  exact ensures_bind (ensures_get (ensures_lift fun _ _ => hafter))

theorem mem_selectedPlaces {rows : List Row} {keep : Row → Bool} {i : Nat} :
    i ∈ selectedPlaces (rows.map keep) ↔ ∃ row, rows[i]? = some row ∧ keep row = true := by
  simp only [selectedPlaces, List.mem_map, List.mem_filter, Prod.exists,
    List.mem_zipIdx_iff_getElem?, List.getElem?_map, Option.map_eq_some_iff]
  constructor
  · rintro ⟨keep', place, ⟨⟨row, hrow, rfl⟩, hkeep⟩, rfl⟩
    exact ⟨row, hrow, hkeep⟩
  · rintro ⟨row, hrow, hkeep⟩
    exact ⟨_, i, ⟨⟨row, hrow, rfl⟩, hkeep⟩, rfl⟩

theorem length_selectedPlaces (rows : List Row) (keep : Row → Bool) :
    (selectedPlaces (rows.map keep)).length = (rows.filter keep).length := by
  have hmarks := List.zipIdx_map_fst 0 (rows.map keep)
  rw [selectedPlaces, List.length_map, ← List.countP_eq_length_filter,
    ← List.countP_eq_length_filter]
  calc (rows.map keep).zipIdx.countP (fun p => p.1)
      = ((rows.map keep).zipIdx.map Prod.fst).countP id := by rw [List.countP_map]; rfl
    _ = rows.countP keep := by rw [hmarks, List.countP_map]; rfl

/-- An UPDATE that succeeds has a mask. It counts the rows that the mask
marks, and leaves those at other places as they were. -/
theorem Update.execute_ensures {assignments : List Assignment} {predicate : Option Expr}
    (hget : store.get stored.table.name = .ok stored) :
    (Update.execute ⟨stored.table.name, assignments, predicate⟩).Ensures store fun effect after =>
      ∃ mask updated, stored.mask store predicate = .ok mask ∧
        effect = .updated (selectedPlaces mask).length ∧
        after = store.setRows (Store.keyOf stored.table.name) updated ∧
        updated.length = stored.rows.length ∧
        ∀ i, i ∉ selectedPlaces mask → updated[i]? = stored.rows[i]? := by
  unfold Update.execute
  refine ensures_bind (ensures_get (ensures_bind (ensures_lift fun found hfound => ?_)))
  cases hget.symm.trans hfound
  refine ensures_bind (ensures_lift fun resolved _ => ?_)
  refine ensures_bind (ensures_lift fun mask hmask => ?_)
  refine ensures_bind fun _ after hafter => ?_
  have hothers := updateRows_others stored.table resolved (selectedPlaces mask) stored.rows.toArray
  rw [Store.perform_mutate _ hget] at hafter
  rcases hrows : (updateRows stored.table resolved (selectedPlaces mask)).perform
    stored.rows.toArray with ⟨_ | _, updated⟩
  · rw [hrows] at hafter
    cases hafter
  · rw [hrows] at hafter
    cases hafter
    obtain ⟨hsize, hsame⟩ := hothers _ updated hrows
    exact ensures_pure ⟨mask, updated.toList, hmask, rfl, rfl, hsize, hsame⟩

-- ========================================================== statements

namespace Statement

variable {version : DialectVersion} {predicate : Option Expr}

theorem perform_delete_of_mask {keep : Row → Bool}
    (hget : store.get stored.table.name = .ok stored)
    (hmask : stored.mask store predicate = .ok (stored.rows.map keep)) :
    ((delete ⟨stored.table.name, predicate⟩).execute version).perform store =
      (.ok (.effect (.deleted (stored.rows.filter keep).length)),
        store.setRows (Store.keyOf stored.table.name)
          (stored.rows.filter fun row => !keep row)) := by
  rw [execute, perform_map, Delete.perform_execute hget, hmask]
  dsimp only
  rw [deleteRows_map]
  rfl

theorem perform_delete_of_error {e : Error}
    (hget : store.get stored.table.name = .ok stored)
    (hmask : stored.mask store predicate = .error e) :
    ((delete ⟨stored.table.name, predicate⟩).execute version).perform store =
      (.error e, store) := by
  rw [execute, perform_map, Delete.perform_execute hget, hmask]
  rfl

theorem perform_update_eq_ok {assignments : List Assignment} {outcome : Outcome} {after : Store}
    (hget : store.get stored.table.name = .ok stored)
    (h : ((update ⟨stored.table.name, assignments, predicate⟩).execute version).perform store =
      (.ok outcome, after)) :
    ∃ keep : Row → Bool, stored.mask store predicate = .ok (stored.rows.map keep) ∧
      outcome = .effect (.updated (stored.rows.filter keep).length) ∧
      ∃ updated, after = store.setRows (Store.keyOf stored.table.name) updated ∧
        updated.length = stored.rows.length ∧
        ∀ (i : Nat) (row : Row), stored.rows[i]? = some row → keep row = false →
          updated[i]? = some row := by
  rw [execute, perform_map] at h
  obtain ⟨hresult, rfl⟩ := Prod.ext_iff.mp h
  obtain ⟨effect, heffect, rfl⟩ := Result.map_eq_ok.mp hresult
  obtain ⟨mask, updated, hmask, rfl, hafter, hlength, hsame⟩ :=
    Update.execute_ensures hget effect _ (Prod.ext heffect rfl)
  obtain ⟨keep, rfl⟩ := StoredTable.mask_eq_map hmask
  refine ⟨keep, hmask, by rw [length_selectedPlaces], updated, hafter, hlength, ?_⟩
  intro i row hrow hkeep
  rw [hsame i, hrow]
  intro hmem
  obtain ⟨other, hother, hkept⟩ := mem_selectedPlaces.mp hmem
  cases hrow.symm.trans hother
  exact Bool.false_ne_true (hkeep.symm.trans hkept)

/-- DELETE, UPDATE and SELECT agree on WHERE. There is one choice of rows
such that SELECT gives those that are chosen, DELETE leaves the others in
their order, and UPDATE leaves the others at their places; each counts
the chosen rows. Where SELECT fails, DELETE fails with it and UPDATE does
not succeed. -/
theorem where_selects_alike (version : DialectVersion) (hvalid : store.Valid)
    (hget : store.get stored.table.name = .ok stored) (predicate : Option Expr) :
    (∀ rows, store.rowsWhere version stored.table.name predicate = .ok rows →
      ∃ keep : Row → Bool, rows = stored.rows.filter keep ∧
        ((delete ⟨stored.table.name, predicate⟩).execute version).perform store =
          (.ok (.effect (.deleted rows.length)),
            store.setRows (Store.keyOf stored.table.name)
              (stored.rows.filter fun row => !keep row)) ∧
        ∀ assignments outcome after,
          ((update ⟨stored.table.name, assignments, predicate⟩).execute version).perform store =
            (.ok outcome, after) →
          outcome = .effect (.updated rows.length) ∧
            ∃ updated, after = store.setRows (Store.keyOf stored.table.name) updated ∧
              updated.length = stored.rows.length ∧
              ∀ (i : Nat) (row : Row), stored.rows[i]? = some row → keep row = false →
                updated[i]? = some row) ∧
    (∀ e, store.rowsWhere version stored.table.name predicate = .error e →
      ((delete ⟨stored.table.name, predicate⟩).execute version).perform store =
          (.error e, store) ∧
        ∀ assignments outcome after,
          ((update ⟨stored.table.name, assignments, predicate⟩).execute version).perform store ≠
            (.ok outcome, after)) := by
  rw [Store.rowsWhere_eq version hvalid hget]
  constructor
  · intro rows hrows
    obtain ⟨mask, hmask, rfl⟩ := Result.map_eq_ok.mp hrows
    obtain ⟨keep, rfl⟩ := StoredTable.mask_eq_map hmask
    rw [Rows.marked_map]
    refine ⟨keep, rfl, perform_delete_of_mask hget hmask, fun assignments outcome after h => ?_⟩
    obtain ⟨keep', hmask', rfl, updated, hafter, hlength, hsame⟩ := perform_update_eq_ok hget h
    have hsameMask := Except.ok.inj (hmask.symm.trans hmask')
    have halike := List.map_inj_left.mp hsameMask
    rw [List.filter_congr halike]
    refine ⟨rfl, updated, hafter, hlength, fun i row hrow hkeep => hsame i row hrow ?_⟩
    rw [← halike row (List.mem_of_getElem? hrow)]
    exact hkeep
  · intro e herror
    have hmask := Result.map_eq_error.mp herror
    refine ⟨perform_delete_of_error hget hmask, fun assignments outcome after h => ?_⟩
    obtain ⟨keep, hmask', -⟩ := perform_update_eq_ok hget h
    cases hmask.symm.trans hmask'

end Statement

namespace Where

/-- Two pages that refer to each other, and one that no page refers
to. -/
def pages : StoredTable where
  table := ⟨"Pages", [⟨"id", .integer, true, false, none, false⟩,
    ⟨"link", .integer, false, true, some .null, false⟩]⟩
  rows := [[.integer 1, .integer 2], [.integer 2, .integer 1], [.integer 3, .null]]

/-- `id IN (SELECT link FROM Pages)` -/
def linked : Expr :=
  .inQuery (.column none "id")
    { Select.allWhere "Pages" none with columns := [⟨.column none "link", none⟩] }

theorem pages_valid : (⟨[⟨"pages", pages⟩]⟩ : Store).Valid := by
  have hholds : ∀ row ∈ pages.rows, pages.table.Holds row := by
    intro row hrow
    simp only [pages, List.mem_cons, List.not_mem_nil, or_false] at hrow
    rcases hrow with rfl | rfl | rfl <;> exact Table.normalizeRow_eq_self.mp rfl
  have hunique : pages.table.Unique pages.rows := by
    intro key hkey
    cases List.mem_singleton.mp hkey
    have hkeys : (pages.rows.map (Table.keyValues [0])).Nodup := by decide
    exact (List.pairwise_map.mp hkeys).imp fun hne hcollide => hne hcollide.1
  refine ⟨List.pairwise_singleton _ _, ?_, ?_⟩
  · intro e he
    cases List.mem_singleton.mp he
    decide
  · intro e he
    cases List.mem_singleton.mp he
    exact .intro (by decide) hholds hunique

/-- Both pages that are referred to are deleted, though each row is what
the other was selected for. -/
theorem linked_pages_selected_alike :
    (⟨[⟨"pages", pages⟩]⟩ : Store).rowsWhere ⟨.sqLite, 3⟩ "Pages" (some linked) =
        .ok [[.integer 1, .integer 2], [.integer 2, .integer 1]] ∧
      ∃ keep : Row → Bool,
        [[.integer 1, .integer 2], [.integer 2, .integer 1]] = pages.rows.filter keep ∧
        ((Statement.delete ⟨"Pages", some linked⟩).execute ⟨.sqLite, 3⟩).perform
            ⟨[⟨"pages", pages⟩]⟩ =
          (.ok (.effect (.deleted 2)),
            ⟨[⟨"pages", { pages with rows := pages.rows.filter fun row => !keep row }⟩]⟩) := by
  have hrows : (⟨[⟨"pages", pages⟩]⟩ : Store).rowsWhere ⟨.sqLite, 3⟩ "Pages" (some linked) =
      .ok [[.integer 1, .integer 2], [.integer 2, .integer 1]] := by rfl
  obtain ⟨hselect, -⟩ :=
    @Statement.where_selects_alike _ pages ⟨.sqLite, 3⟩ pages_valid rfl (some linked)
  obtain ⟨keep, hkeep, hdelete, -⟩ := hselect _ hrows
  exact ⟨hrows, keep, hkeep, hdelete⟩

end Where

end DialectDb
