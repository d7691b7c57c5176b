/-
Three ways to put full rows into a table: as literals of INSERT, as the
rows of its query, and by seeding. They check rows in different orders.
INSERT makes all rows complete before it writes the first of them, and
seeding takes them one by one; so where several rows are wrong, they fail
for different ones. But they ask the same of the rows. Each has to be one
that the table accepts, and none may collide with a row of the table or
with one inserted before it (`Table.CanInsert`).

INSERT asks one thing more. It always resolves what is to happen to rows
that conflict, and the scope of that has the row in the way under the
table's name and the new row under the name `excluded`. So nothing can be
inserted into a table of that name but by seeding.
-/
import DialectDb.Proofs.Where

namespace DialectDb

open DialectDb.Action

-- ============================================================== values

/-- Only NULL is stored as NULL. -/
theorem Value.eq_null_of_coerce {value : Value} {type : DataType}
    (h : value.coerce type = .ok .null) : value = .null := by
  unfold coerce at h
  split at h
  case h_1 => rfl
  case h_7 => split at h <;> cases h
  case h_8 =>
    split at h
    · cases h
    · split at h <;> cases h
  all_goals cases h

/-- A value that a column takes: it can be stored as one of the column's
type, and is NULL only where the column takes NULL. -/
structure Column.Accepts (c : Column) (value : Value) : Prop where
  coerces : ∃ stored, value.coerce c.type = .ok stored
  nullable : value = .null → c.nullable = true

/-- A value as a column stores it, if it does. -/
def Column.coerced (c : Column) (value : Value) : Value :=
  (value.coerce c.type).toOption.getD .null

namespace Table

theorem normalizeValue_eq_ok {c : Column} {value stored : Value} :
    normalizeValue c value = .ok stored ↔ c.Accepts value ∧ stored = c.coerced value := by
  unfold normalizeValue
  rw [Result.bind_eq_ok]
  constructor
  · rintro ⟨coerced, hcoerce, h⟩
    obtain ⟨hnull, hstored⟩ := Result.guard_eq_ok.mp h
    cases hstored
    refine ⟨⟨⟨_, hcoerce⟩, ?_⟩, ?_⟩
    · rintro rfl
      cases hcoerce
      simpa using hnull
    · rw [Column.coerced, hcoerce]
      rfl
  · rintro ⟨⟨⟨coerced, hcoerce⟩, hnullable⟩, rfl⟩
    refine ⟨coerced, hcoerce, Result.guard_eq_ok.mpr ⟨?_, ?_⟩⟩
    · rw [Bool.and_eq_true, decide_eq_true_eq, Bool.not_eq_true']
      rintro ⟨rfl, hnot⟩
      rw [hnullable (Value.eq_null_of_coerce hcoerce)] at hnot
      cases hnot
    · rw [Column.coerced, hcoerce]
      rfl

-- ================================================================ rows

variable {t : Table} {row stored : Row}

/-- A row that a table accepts: it has a value for every column, which
the column takes. -/
def Accepts (t : Table) (row : Row) : Prop :=
  List.Forall₂ Column.Accepts t.columns row

/-- A row with each value as its column stores it. -/
def coerced (t : Table) (row : Row) : Row :=
  List.zipWith Column.coerced t.columns row

theorem normalizeValues_eq_ok {columns : List Column} (hlength : row.length = columns.length) :
    normalizeValues columns row = .ok stored ↔
      List.Forall₂ Column.Accepts columns row ∧
        stored = List.zipWith Column.coerced columns row := by
  induction columns generalizing row stored with
  | nil =>
      cases List.length_eq_zero_iff.mp hlength
      constructor
      · intro h
        cases h
        exact ⟨.nil, rfl⟩
      · rintro ⟨-, rfl⟩
        rfl
  | cons c columns ih =>
      cases row with
      | nil => cases hlength
      | cons value row =>
          have hrest := @ih row
          rw [normalizeValues, Result.bind_eq_ok]
          simp only [Result.bind_eq_ok, Result.pure_eq_ok, normalizeValue_eq_ok,
            hrest (Nat.succ.inj hlength), List.forall₂_cons, List.zipWith_cons_cons]
          constructor
          · rintro ⟨_, ⟨hfirst, rfl⟩, _, ⟨hrow, rfl⟩, rfl⟩
            exact ⟨⟨hfirst, hrow⟩, rfl⟩
          · rintro ⟨⟨hfirst, hrow⟩, rfl⟩
            exact ⟨_, ⟨hfirst, rfl⟩, _, ⟨hrow, rfl⟩, rfl⟩

/-- A row can be stored iff the table accepts it. -/
theorem normalizeRow_eq_ok :
    t.normalizeRow row = .ok stored ↔ t.Accepts row ∧ stored = t.coerced row := by
  unfold normalizeRow
  split
  · next hlength => exact normalizeValues_eq_ok hlength
  · next hlength =>
      exact ⟨nofun, fun h => absurd h.1.length_eq.symm hlength⟩

/-- All of some rows can be stored iff the table accepts each. -/
theorem normalizeRows_eq_ok {rows news : List Row} :
    rows.mapM t.normalizeRow = .ok news ↔
      (∀ row ∈ rows, t.Accepts row) ∧ news = rows.map t.coerced := by
  rw [Result.mapM_eq_ok]
  simp only [normalizeRow_eq_ok]
  induction rows generalizing news with
  | nil => simp
  | cons row rows ih =>
      simp only [List.forall₂_cons_left_iff, List.forall_mem_cons, List.map_cons, ih]
      constructor
      · rintro ⟨_, _, ⟨hrow, rfl⟩, ⟨hrows, rfl⟩, rfl⟩
        exact ⟨⟨hrow, hrows⟩, rfl⟩
      · rintro ⟨⟨hrow, hrows⟩, rfl⟩
        exact ⟨_, _, ⟨hrow, rfl⟩, ⟨hrows, rfl⟩, rfl⟩

-- ========================================================== collisions

/-- New rows that collide with no row there is, nor with each other. -/
structure Fresh (t : Table) (existing news : List Row) : Prop where
  existing : ∀ key ∈ t.uniqueKeys, ∀ new ∈ news, ∀ old ∈ existing, ¬Collide key new old
  among : t.Unique news

theorem fresh_nil (existing : List Row) : t.Fresh existing [] :=
  ⟨fun _ _ _ h => absurd h List.not_mem_nil, unique_nil⟩

/-- The first of them collides with no row there is, and the others with
none of those and the first. -/
theorem fresh_cons {existing news : List Row} :
    t.Fresh existing (row :: news) ↔
      (∀ key ∈ t.uniqueKeys, ∀ old ∈ existing, ¬Collide key row old) ∧
        t.Fresh (existing ++ [row]) news := by
  constructor
  · intro h
    refine ⟨fun key hkey => h.existing key hkey row List.mem_cons_self,
      fun key hkey new hnew old hold => ?_,
      fun key hkey => (List.pairwise_cons.mp (h.among key hkey)).2⟩
    rcases List.mem_append.mp hold with hold | hold
    · exact h.existing key hkey new (List.mem_cons_of_mem _ hnew) old hold
    · rw [List.mem_singleton.mp hold]
      exact fun hcollide => (List.pairwise_cons.mp (h.among key hkey)).1 new hnew hcollide.symm
  · rintro ⟨hrow, h⟩
    refine ⟨fun key hkey => List.forall_mem_cons.mpr ⟨hrow key hkey, fun new hnew old hold => ?_⟩,
      fun key hkey => List.pairwise_cons.mpr ⟨fun new hnew hcollide => ?_, h.among key hkey⟩⟩
    · exact h.existing key hkey new hnew old (List.mem_append_left _ hold)
    · have hmem : row ∈ existing ++ [row] := List.mem_append_right _ (List.mem_singleton_self row)
      exact h.existing key hkey new hnew row hmem hcollide.symm

theorem perform_append_eq_ok {rows after : Array Row} :
    (t.append row).perform rows = (.ok ⟨⟩, after) ↔
      (∀ key ∈ t.uniqueKeys, ∀ old ∈ rows.toList, ¬Collide key row old) ∧
        after = rows.push row := by
  have hperform : (t.append row).perform rows =
      (do
        t.checkUnique rows row none
        set (rows.push row) : Action (Array Row) Unit).perform rows :=
    perform_get_bind _ rows
  simp only [hperform, perform_lift_bind_eq_ok, perform_set, Array.mem_toList_iff]
  constructor
  · rintro ⟨_, hcheck, hafter⟩
    cases hafter
    exact ⟨checkUnique_eq_ok.mp hcheck, rfl⟩
  · rintro ⟨hfree, rfl⟩
    exact ⟨⟨⟩, checkUnique_eq_ok.mpr hfree, rfl⟩

/-- Rows can be put one by one behind those there are iff they are
fresh. -/
theorem perform_appends_eq_ok {rows after : Array Row} {news : List Row} :
    (news.forM t.append).perform rows = (.ok ⟨⟩, after) ↔
      t.Fresh rows.toList news ∧ after.toList = rows.toList ++ news := by
  induction news generalizing rows with
  | nil =>
      rw [List.append_nil]
      constructor
      · intro h
        cases h
        exact ⟨fresh_nil _, rfl⟩
      · rintro ⟨-, h⟩
        rw [Array.toList_inj.mp h]
        rfl
  | cons row news ih =>
      show (t.append row >>= fun _ => news.forM t.append).perform rows = _ ↔ _
      rw [perform_bind_eq_ok, fresh_cons]
      constructor
      · rintro ⟨_, mid, happend, hrest⟩
        obtain ⟨hfree, rfl⟩ := perform_append_eq_ok.mp happend
        obtain ⟨hfresh, hafter⟩ := ih.mp hrest
        rw [Array.toList_push] at hfresh hafter
        exact ⟨⟨hfree, hfresh⟩, by rw [hafter, List.append_assoc, List.singleton_append]⟩
      · rintro ⟨⟨hfree, hfresh⟩, hafter⟩
        refine ⟨⟨⟩, rows.push row, perform_append_eq_ok.mpr ⟨hfree, rfl⟩, ih.mpr ?_⟩
        rw [Array.toList_push]
        exact ⟨hfresh, by rw [hafter, List.append_assoc, List.singleton_append]⟩

-- ============================================================ insertion

/-- Rows that can be inserted behind others: the table accepts each, and
as it stores them they are fresh. -/
structure CanInsert (t : Table) (existing rows : List Row) : Prop where
  accepts : ∀ row ∈ rows, t.Accepts row
  fresh : t.Fresh existing (rows.map t.coerced)

/-- Rows that are completed and put behind others, all first or one by
one, can be iff they can be inserted. -/
theorem perform_completed_eq_ok {existing after : Array Row} {rows : List Row} :
    (∃ news, rows.mapM t.normalizeRow = .ok news ∧
        (news.forM t.append).perform existing = (.ok ⟨⟩, after)) ↔
      t.CanInsert existing.toList rows ∧
        after.toList = existing.toList ++ rows.map t.coerced := by
  simp only [normalizeRows_eq_ok, perform_appends_eq_ok]
  constructor
  · rintro ⟨_, ⟨haccepts, rfl⟩, hfresh, hafter⟩
    exact ⟨⟨haccepts, hfresh⟩, hafter⟩
  · rintro ⟨⟨haccepts, hfresh⟩, hafter⟩
    exact ⟨_, ⟨haccepts, rfl⟩, hfresh, hafter⟩

end Table

/-- An action on what is computed of each item succeeds on all of them
iff all can be computed and it succeeds on what is computed. Whether a
computation comes before the actions on other items does not matter. -/
theorem Action.perform_forM_lift_eq_ok {σ α β : Type} {f : α → Result β} {g : β → Action σ PUnit}
    {items : List α} {s after : σ} :
    (items.forM fun a => liftM (f a) >>= g).perform s = (.ok ⟨⟩, after) ↔
      ∃ computed, items.mapM f = .ok computed ∧
        (computed.forM g).perform s = (.ok ⟨⟩, after) := by
  induction items generalizing s with
  | nil =>
      constructor
      · exact fun h => ⟨[], rfl, h⟩
      · rintro ⟨_, hnil, h⟩
        cases hnil
        exact h
  | cons a rest ih =>
      show ((liftM (f a) >>= g) >>= fun _ =>
        rest.forM fun a => liftM (f a) >>= g).perform s = _ ↔ _
      rw [bind_assoc, perform_lift_bind_eq_ok, List.mapM_cons]
      simp only [Result.bind_eq_ok, Result.pure_eq_ok]
      constructor
      · rintro ⟨b, hb, h⟩
        obtain ⟨_, mid, hfirst, hrest⟩ := perform_bind_eq_ok.mp h
        obtain ⟨computed, hcomputed, hafter⟩ := ih.mp hrest
        exact ⟨_, ⟨b, hb, computed, hcomputed, rfl⟩,
          perform_bind_eq_ok.mpr ⟨_, mid, hfirst, hafter⟩⟩
      · rintro ⟨_, ⟨b, hb, computed, hcomputed, rfl⟩, h⟩
        obtain ⟨_, mid, hfirst, hafter⟩ := perform_bind_eq_ok.mp h
        exact ⟨b, hb, perform_bind_eq_ok.mpr ⟨_, mid, hfirst, ih.mpr ⟨computed, hcomputed, hafter⟩⟩⟩

variable {store after : Store} {stored : StoredTable} {name : String} {rows : List Row}

/-- A table's rows with others behind them, as it stores them. -/
def StoredTable.appended (stored : StoredTable) (rows : List Row) : List Row :=
  stored.rows ++ rows.map stored.table.coerced

theorem Store.perform_insertRows_eq_ok {count : Nat} (hget : store.get name = .ok stored) :
    (insertRows name rows).perform store = (.ok count, after) ↔
      stored.table.CanInsert stored.rows rows ∧ count = rows.length ∧
        after = store.setRows (keyOf name) (stored.appended rows) := by
  have hchange : ∀ changed, ((do
      rows.forM fun row => do stored.table.append (← stored.table.normalizeRow row)
      return rows.length : Action (Array Row) Nat).perform stored.rows.toArray =
        (.ok count, changed)) ↔
      (stored.table.CanInsert stored.rows rows ∧ changed.toList = stored.appended rows) ∧
        count = rows.length := by
    intro changed
    rw [perform_bind_eq_ok]
    constructor
    · rintro ⟨_, mid, hloop, hcount⟩
      cases hcount
      exact ⟨Table.perform_completed_eq_ok.mp (perform_forM_lift_eq_ok.mp hloop), rfl⟩
    · rintro ⟨hrows, rfl⟩
      exact ⟨_, _, perform_forM_lift_eq_ok.mpr (Table.perform_completed_eq_ok.mpr hrows), rfl⟩
  unfold insertRows
  rw [perform_mutate_eq_ok hget]
  simp only [hchange]
  constructor
  · rintro ⟨changed, ⟨⟨hrows, hchanged⟩, hcount⟩, rfl⟩
    exact ⟨hrows, hcount, by rw [hchanged]⟩
  · rintro ⟨hrows, hcount, rfl⟩
    exact ⟨(stored.appended rows).toArray, ⟨⟨hrows, rfl⟩, hcount⟩, rfl⟩

/-- A table with columns that has the name under which upsert
assignments refer to the row that was to be inserted. -/
def Table.NamedExcluded (t : Table) : Prop :=
  t.columns ≠ [] ∧ Text.lower t.name = excludedTable

namespace Insert

-- ======================================================= INSERT, two ways

/-- `INSERT INTO table VALUES` with rows of literals. -/
def ofValues (table : String) (rows : List Row) : Insert where
  table
  columns := none
  rows := rows.map (·.map .literal)
  query := none

/-- `INSERT INTO table SELECT`. -/
def ofQuery (table : String) (q : Select) : Insert where
  table
  columns := none
  rows := []
  query := some q

theorem values_ofValues (version : DialectVersion) (store : Store) (table : String)
    (rows : List Row) : (ofValues table rows).values version store = .ok rows := by
  have hrow : ∀ row : Row, (row.map Expr.literal).mapM Scope.evalConstant = .ok row := by
    intro row
    rw [Result.mapM_eq_ok, List.forall₂_map_left_iff]
    exact List.forall₂_same.mpr fun _ _ => rfl
  show (rows.map (·.map Expr.literal)).mapM (·.mapM Scope.evalConstant) = .ok rows
  rw [Result.mapM_eq_ok, List.forall₂_map_left_iff]
  exact List.forall₂_same.mpr fun row _ => hrow row

/-- The values of the i-th of consecutive places are the i-th values. -/
theorem lookup_zip_range' {values : List Value} (start : Nat) {i : Nat} (hi : i < values.length) :
    ((List.range' start values.length).zip values).lookup (start + i) = some values[i] := by
  induction values generalizing start i with
  | nil => exact absurd hi (Nat.not_lt_zero i)
  | cons value values ih =>
      rw [List.length_cons, List.range'_succ, List.zip_cons_cons, List.lookup_cons]
      cases i with
      | zero => simp
      | succ i =>
          have hne : (start + (i + 1) == start) = false := by simp
          have hrest := ih (start + 1) (Nat.lt_of_succ_lt_succ hi)
          rw [Nat.add_right_comm, Nat.add_assoc] at hrest
          rw [hne, List.getElem_cons_succ]
          exact hrest

/-- Where there is a value for every column, defaults play no part. -/
theorem buildRow_range {t : Table} {row : Row} (hwidth : row.length = t.columns.length) :
    t.buildRow (List.range t.columns.length) row = t.normalizeRow row := by
  have hgiven : ∀ f : Column × Nat → Result Value,
      (∀ c i (hi : i < row.length), f (c, i) = .ok row[i]) → t.columns.zipIdx.mapM f = .ok row := by
    intro f hf
    rw [Result.mapM_eq_ok, List.forall₂_iff_get]
    refine ⟨by rw [List.length_zipIdx, hwidth], fun i hi hi' => ?_⟩
    rw [List.get_eq_getElem, List.getElem_zipIdx, Nat.zero_add]
    exact hf _ i hi'
  unfold Table.buildRow
  dsimp only
  rw [hgiven _ fun c i hi => ?_, Result.ok_bind]
  have hlookup := lookup_zip_range' 0 hi
  rw [hwidth, ← List.range_eq_range', Nat.zero_add] at hlookup
  dsimp only
  rw [hlookup]

theorem buildRows_range {i : Insert} {t : Table} (hcolumns : i.columns = none)
    (hwidth : ∀ row ∈ rows, row.length = t.columns.length) :
    i.buildRows t (List.range t.columns.length) rows = rows.mapM t.normalizeRow := by
  refine Result.mapM_congr fun row hrow => ?_
  have hcount :
      checkValueCount i.columns (List.range t.columns.length).length row.length = .ok () := by
    simp [checkValueCount, hcolumns, hwidth row hrow]
  rw [hcount, Result.ok_bind, buildRow_range (hwidth row hrow)]

-- ============================================================ conflicts

/-- The tables of a table's columns are that table, again and again. -/
theorem tables_ofColumns (table : String) (columns : List String) :
    Scope.tables (Scope.ofColumns table columns).labels =
      columns.map fun _ => Text.lower table := by
  show (columns.map (Label.qualified table)).filterMap _ = _
  rw [List.filterMap_map, ← List.filterMap_eq_map]
  rfl

/-- The row in the way and the new row can be told apart unless the
table has the name of the new row. -/
theorem conflictScope_eq_ok {t : Table} :
    (∃ scope, conflictScope t = .ok scope) ↔ ¬t.NamedExcluded := by
  have hexcluded : Text.lower excludedTable = excludedTable := rfl
  unfold conflictScope Scope.merge Table.scope Table.columnNames
  rw [tables_ofColumns, tables_ofColumns, hexcluded]
  by_cases hcolumns : t.columns = []
  · simp [Table.NamedExcluded, hcolumns]
  · obtain ⟨c, columns, hcons⟩ := List.exists_cons_of_ne_nil hcolumns
    by_cases hname : Text.lower t.name = excludedTable
    · simp [Table.NamedExcluded, hcons, hname]
    · have hnone : ((t.columns.map (·.name)).map fun _ => excludedTable).find?
          ((t.columns.map (·.name)).map fun _ => Text.lower t.name).contains = none := by
        rw [List.find?_eq_none]
        simp only [List.map_map, List.mem_map, Function.comp_apply, List.contains_eq_mem,
          decide_eq_true_eq]
        rintro _ ⟨_, -, rfl⟩ ⟨_, -, hsame⟩
        exact hname hsame
      rw [hnone]
      simp [Table.NamedExcluded, hname]

/-- Without a conflict clause a row is put behind the others, whether it
conflicts with one or not. -/
theorem perform_writeRow_eq_ok {t : Table} {keys : List (List Nat)} {row : Row}
    {existing changed : Array Row} {count : Nat} :
    (writeRow t ⟨keys, [], false⟩ row).perform existing = (.ok count, changed) ↔
      (t.append row).perform existing = (.ok ⟨⟩, changed) ∧ count = 1 := by
  have hplain : (writeRow t ⟨keys, [], false⟩ row).perform existing =
      (do t.append row; return 1 : Action (Array Row) Nat).perform existing := by
    refine (perform_get_bind _ existing).trans ?_
    dsimp only
    split <;> rfl
  rw [hplain, perform_bind_eq_ok]
  constructor
  · rintro ⟨_, _, happend, hcount⟩
    cases hcount
    exact ⟨happend, rfl⟩
  · rintro ⟨happend, rfl⟩
    exact ⟨_, _, happend, rfl⟩

theorem perform_writeRows_eq_ok {t : Table} {keys : List (List Nat)} {existing changed : Array Row}
    {news : List Row} {count : Nat} :
    (writeRows t ⟨keys, [], false⟩ news).perform existing = (.ok count, changed) ↔
      (news.forM t.append).perform existing = (.ok ⟨⟩, changed) ∧ count = news.length := by
  have hfrom : ∀ start, (news.foldlM (fun count row => do
        return count + (← writeRow t ⟨keys, [], false⟩ row)) start).perform existing =
        (.ok count, changed) ↔
      (news.forM t.append).perform existing = (.ok ⟨⟩, changed) ∧ count = start + news.length := by
    induction news generalizing existing with
    | nil =>
        intro start
        constructor
        · intro h
          cases h
          exact ⟨rfl, rfl⟩
        · rintro ⟨h, rfl⟩
          cases h
          rfl
    | cons row news ih =>
        intro start
        rw [List.foldlM_cons, bind_assoc, perform_bind_eq_ok]
        show _ ↔ (t.append row >>= fun _ => news.forM t.append).perform existing = _ ∧ _
        simp only [pure_bind, perform_bind_eq_ok, perform_writeRow_eq_ok, ih, List.length_cons]
        constructor
        · rintro ⟨_, mid, ⟨happend, rfl⟩, hrest, rfl⟩
          exact ⟨⟨_, mid, happend, hrest⟩, by omega⟩
        · rintro ⟨⟨_, mid, happend, hrest⟩, rfl⟩
          exact ⟨1, mid, ⟨happend, rfl⟩, hrest, by omega⟩
  rw [← Nat.zero_add news.length]
  exact hfrom 0

-- ============================================================== INSERT

/-- INSERT without a list of columns and without a conflict clause. -/
structure IsPlain (i : Insert) : Prop where
  columns : i.columns = none
  conflictTarget : i.conflictTarget = []
  assignments : i.assignments = []
  ignoreConflicts : i.ignoreConflicts = false

theorem isPlain_ofValues (table : String) (rows : List Row) : (ofValues table rows).IsPlain :=
  ⟨rfl, rfl, rfl, rfl⟩

theorem isPlain_ofQuery (table : String) (q : Select) : (ofQuery table q).IsPlain :=
  ⟨rfl, rfl, rfl, rfl⟩

/-- What such an INSERT does with rows that conflict can be resolved
unless the table has the name of the new row. -/
theorem IsPlain.resolution_eq_ok {i : Insert} (h : i.IsPlain) {t : Table} {r : Resolution} :
    i.resolution t = .ok r ↔ ¬t.NamedExcluded ∧ r = ⟨t.uniqueKeys, [], false⟩ := by
  have hresolution : i.resolution t =
      conflictScope t >>= fun _ => .ok ⟨t.uniqueKeys, [], false⟩ := by
    unfold resolution conflictKeys
    rw [h.conflictTarget, h.assignments, h.ignoreConflicts]
    rfl
  rw [hresolution, Result.bind_eq_ok, ← conflictScope_eq_ok]
  constructor
  · rintro ⟨scope, hscope, hr⟩
    cases hr
    exact ⟨⟨scope, hscope⟩, rfl⟩
  · rintro ⟨⟨scope, hscope⟩, rfl⟩
    exact ⟨scope, hscope, rfl⟩

/-- Such an INSERT of full rows succeeds iff the rows can be inserted and
the table does not have the name of the new row. -/
theorem IsPlain.perform_execute_eq_ok {i : Insert} (h : i.IsPlain) {version : DialectVersion}
    {effect : Effect} (hget : store.get i.table = .ok stored)
    (hvalues : i.values version store = .ok rows)
    (hwidth : ∀ row ∈ rows, row.length = stored.table.columns.length) :
    (i.execute version).perform store = (.ok effect, after) ↔
      ¬stored.table.NamedExcluded ∧ stored.table.CanInsert stored.rows rows ∧
        effect = .inserted rows.length ∧
        after = store.setRows (Store.keyOf i.table) (stored.appended rows) := by
  have hplaces : stored.table.valuePlaces i.columns =
      .ok (List.range stored.table.columns.length) := by
    rw [h.columns]
    rfl
  have hbuild := buildRows_range h.columns hwidth
  unfold execute
  rw [perform_get_bind, perform_lift_bind, hget]
  dsimp only
  rw [perform_lift_bind, hplaces]
  dsimp only
  rw [perform_lift_bind, hvalues]
  dsimp only
  rw [hbuild, perform_lift_bind_eq_ok]
  constructor
  · rintro ⟨news, hnews, hrun⟩
    obtain ⟨r, hr, hrun⟩ := perform_lift_bind_eq_ok.mp hrun
    obtain ⟨hname, rfl⟩ := h.resolution_eq_ok.mp hr
    obtain ⟨count, _, hmutate, heffect⟩ := perform_bind_eq_ok.mp hrun
    cases heffect
    obtain ⟨changed, hwrite, rfl⟩ := (Store.perform_mutate_eq_ok hget).mp hmutate
    obtain ⟨happends, rfl⟩ := perform_writeRows_eq_ok.mp hwrite
    obtain ⟨hinsert, hchanged⟩ := Table.perform_completed_eq_ok.mp ⟨news, hnews, happends⟩
    refine ⟨hname, hinsert, ?_, congrArg _ hchanged⟩
    rw [(Result.mapM_eq_ok.mp hnews).length_eq]
  · rintro ⟨hname, hinsert, rfl, rfl⟩
    obtain ⟨news, hnews, happends⟩ := (@Table.perform_completed_eq_ok stored.table
      stored.rows.toArray (stored.appended rows).toArray rows).mpr ⟨hinsert, rfl⟩
    have hwrite : (writeRows stored.table ⟨stored.table.uniqueKeys, [], false⟩ news).perform
        stored.rows.toArray = (.ok news.length, (stored.appended rows).toArray) :=
      perform_writeRows_eq_ok.mpr ⟨happends, rfl⟩
    refine ⟨news, hnews, perform_lift_bind_eq_ok.mpr
      ⟨_, h.resolution_eq_ok.mpr ⟨hname, rfl⟩, perform_bind_eq_ok.mpr
      ⟨news.length, _, (Store.perform_mutate_eq_ok hget).mpr ⟨_, hwrite, rfl⟩, ?_⟩⟩⟩
    rw [(Result.mapM_eq_ok.mp hnews).length_eq]
    rfl

end Insert

namespace Statement

/-- The three ways agree. -/
theorem insertions_agree {q : Select} {answer : Answer} {version : DialectVersion}
    (hget : store.get name = .ok stored)
    (hwidth : ∀ row ∈ rows, row.length = stored.table.columns.length)
    (hquery : q.evaluate version store = .ok answer) (hrows : answer.rows.collect = .ok rows) :
    (∀ count after, (Store.insertRows name rows).perform store = (.ok count, after) ↔
      stored.table.CanInsert stored.rows rows ∧ count = rows.length ∧
        after = store.setRows (Store.keyOf name) (stored.appended rows)) ∧
    ∀ i ∈ [Insert.ofValues name rows, Insert.ofQuery name q], ∀ outcome after,
      ((insert i).execute version).perform store = (.ok outcome, after) ↔
        ¬stored.table.NamedExcluded ∧ stored.table.CanInsert stored.rows rows ∧
          outcome = .effect (.inserted rows.length) ∧
          after = store.setRows (Store.keyOf name) (stored.appended rows) := by
  have hways : ∀ i ∈ [Insert.ofValues name rows, Insert.ofQuery name q],
      i.IsPlain ∧ i.table = name ∧ i.values version store = .ok rows := by
    simp only [List.mem_cons, List.not_mem_nil, or_false, forall_eq_or_imp, forall_eq]
    refine ⟨⟨Insert.isPlain_ofValues name rows, rfl,
      Insert.values_ofValues version store name rows⟩, Insert.isPlain_ofQuery name q, rfl, ?_⟩
    show q.evaluate version store >>= (·.rows.collect) = .ok rows
    rw [hquery, Result.ok_bind, hrows]
  refine ⟨fun count after => Store.perform_insertRows_eq_ok hget, fun i hi outcome after => ?_⟩
  obtain ⟨hplain, rfl, hvalues⟩ := hways i hi
  have hexecute : ∀ effect, (i.execute version).perform store = (.ok effect, after) ↔
      ¬stored.table.NamedExcluded ∧ stored.table.CanInsert stored.rows rows ∧
        effect = .inserted rows.length ∧
        after = store.setRows (Store.keyOf i.table) (stored.appended rows) :=
    fun _ => hplain.perform_execute_eq_ok hget hvalues hwidth
  rw [execute, perform_map, Prod.ext_iff, Result.map_eq_ok]
  constructor
  · rintro ⟨⟨effect, heffect, rfl⟩, hafter⟩
    obtain ⟨hname, hinsert, rfl, hstore⟩ := (hexecute effect).mp (Prod.ext heffect hafter)
    exact ⟨hname, hinsert, rfl, hstore⟩
  · rintro ⟨hname, hinsert, rfl, hstore⟩
    obtain ⟨hresult, hafter⟩ :=
      Prod.ext_iff.mp ((hexecute _).mpr ⟨hname, hinsert, rfl, hstore⟩)
    exact ⟨⟨_, hresult, rfl⟩, hafter⟩

end Statement

namespace Insertion

/-- `SELECT 2, 'tea'` -/
def two : Select :=
  { Select.allWhere "" none with
    columns := [⟨.literal (.integer 2), none⟩, ⟨.literal (.string "tea"), none⟩], source := none }

/-- A table of orders with one row. -/
def ordersNamed (name : String) : StoredTable where
  table := ⟨name, [⟨"id", .integer, true, false, none, false⟩,
    ⟨"item", .string, false, true, some .null, false⟩]⟩
  rows := [[.integer 1, .string "milk"]]

def storeNamed (name : String) : Store :=
  ⟨[⟨Store.keyOf name, ordersNamed name⟩]⟩

theorem ordersNamed_canInsert (name : String) :
    (ordersNamed name).table.CanInsert (ordersNamed name).rows [[.integer 2, .string "tea"]] := by
  constructor
  · intro row hrow
    rw [List.mem_singleton.mp hrow]
    exact (Table.normalizeRow_eq_ok.mp rfl).1
  · refine Table.fresh_cons.mpr ⟨fun key hkey old hold hcollide => ?_, Table.fresh_nil _⟩
    cases List.mem_singleton.mp hkey
    cases List.mem_singleton.mp hold
    have hkeys : Table.keyValues [0] [.integer 2, .string "tea"] ≠
        Table.keyValues [0] [.integer 1, .string "milk"] := by decide
    exact hkeys hcollide.1

/-- The row that the query returns goes behind the one there is, in each
of the three ways. -/
theorem orders_insertions_agree :
    (two.evaluate ⟨.sqLite, 3⟩ (storeNamed "Orders") >>= (·.rows.collect)) =
        .ok [[.integer 2, .string "tea"]] ∧
      (Store.insertRows "orders" [[.integer 2, .string "tea"]]).perform (storeNamed "Orders") =
        (.ok 1, ⟨[⟨"orders", { ordersNamed "Orders" with
          rows := [[.integer 1, .string "milk"], [.integer 2, .string "tea"]] }⟩]⟩) ∧
      ((Statement.insert (.ofQuery "orders" two)).execute ⟨.sqLite, 3⟩).perform
          (storeNamed "Orders") =
        (.ok (.effect (.inserted 1)), ⟨[⟨"orders", { ordersNamed "Orders" with
          rows := [[.integer 1, .string "milk"], [.integer 2, .string "tea"]] }⟩]⟩) := by
  have hread : (two.evaluate ⟨.sqLite, 3⟩ (storeNamed "Orders") >>= (·.rows.collect)) =
      .ok [[.integer 2, .string "tea"]] := by rfl
  obtain ⟨answer, hquery, hrows⟩ := Result.bind_eq_ok.mp hread
  obtain ⟨hseed, hstatement⟩ := @Statement.insertions_agree (storeNamed "Orders")
    (ordersNamed "Orders") "orders" [[.integer 2, .string "tea"]] two answer ⟨.sqLite, 3⟩ rfl
    (by decide) hquery hrows
  have hname : ¬(ordersNamed "Orders").table.NamedExcluded := fun h => absurd h.2 (by decide)
  have hcan := ordersNamed_canInsert "Orders"
  refine ⟨hread, (hseed _ _).mpr ⟨hcan, rfl, rfl⟩, ?_⟩
  exact (hstatement _ (by simp) _ _).mpr ⟨hname, hcan, rfl, rfl⟩

/-- Into a table that is called like the new row in upsert assignments,
the same row goes by seeding only. -/
theorem excluded_insertions_differ :
    (Store.insertRows "excluded" [[.integer 2, .string "tea"]]).perform (storeNamed "Excluded") =
        (.ok 1, ⟨[⟨"excluded", { ordersNamed "Excluded" with
          rows := [[.integer 1, .string "milk"], [.integer 2, .string "tea"]] }⟩]⟩) ∧
      ∀ i ∈ [Insert.ofValues "excluded" [[.integer 2, .string "tea"]],
          Insert.ofQuery "excluded" two],
        ((Statement.insert i).execute ⟨.sqLite, 3⟩).perform (storeNamed "Excluded") =
          (.error (.schema (.duplicateTable "excluded")), storeNamed "Excluded") := by
  constructor
  · have hget : (storeNamed "Excluded").get "excluded" = .ok (ordersNamed "Excluded") := rfl
    exact (Store.perform_insertRows_eq_ok hget).mpr ⟨ordersNamed_canInsert "Excluded", rfl, rfl⟩
  · simp only [List.mem_cons, List.not_mem_nil, or_false, forall_eq_or_imp, forall_eq]
    exact ⟨by rfl, by rfl⟩

end Insertion

end DialectDb
