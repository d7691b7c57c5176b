/-
The statements that write rows keep a store valid. Each has its own
moment to check what it has written, and so its own invariant:

- INSERT checks each row as it is written, so the copy that it works on
  is valid all the time.
- UPDATE checks at the end. Until then the rows are rows that the table
  holds, and those it has not written are those there were.
- MERGE has its rows complete before it checks. Those it has not written
  are some of those there were, in their order.
- DELETE checks nothing. What is left is some of what there was.
-/
import DialectDb.Execution
import DialectDb.Proofs.Validity

namespace DialectDb

open DialectDb.Action

variable {t : Table}

/-- Rows that make a valid table of a schema. -/
structure Table.ValidRows (t : Table) (rows : List Row) : Prop where
  holds : ∀ row ∈ rows, t.Holds row
  unique : t.Unique rows

/-- Rows that a table holds, after one of them is replaced by another
that it holds. -/
theorem Table.holds_set {rows : Array Row} {index : Nat} {row : Row}
    (h : ∀ other ∈ rows.toList, t.Holds other) (hrow : t.Holds row) :
    ∀ other ∈ (rows.setIfInBounds index row).toList, t.Holds other := by
  intro other hother
  rw [Array.toList_setIfInBounds] at hother
  rcases List.mem_or_eq_of_mem_set hother with hother | rfl
  · exact h other hother
  · exact hrow

theorem Table.ValidRows.set {rows : Array Row} {index : Nat} {row : Row}
    (h : t.ValidRows rows.toList) (hrow : t.Holds row)
    (hcheck : t.checkUnique rows row (some index) = .ok ()) :
    t.ValidRows (rows.setIfInBounds index row).toList :=
  ⟨holds_set h.holds hrow, h.unique.set hcheck⟩

theorem Table.ValidRows.push {rows : Array Row} {row : Row} (h : t.ValidRows rows.toList)
    (hrow : t.Holds row) (hcheck : t.checkUnique rows row none = .ok ()) :
    t.ValidRows (rows.push row).toList := by
  refine ⟨fun other hother => ?_, h.unique.push hcheck⟩
  rw [Array.toList_push] at hother
  rcases List.mem_append.mp hother with hother | hother
  · exact h.holds other hother
  · rw [List.mem_singleton.mp hother]
    exact hrow

theorem StoredTable.Valid.validRows {s : StoredTable} (h : s.Valid) : s.table.ValidRows s.rows :=
  ⟨h.holds, h.unique⟩

-- ============================================================== DELETE

/-- The rows that are not deleted are some of those there were. -/
theorem deleteRows_sublist (mask : List Bool) (rows : List Row) :
    (deleteRows mask rows).2.Sublist rows := by
  unfold deleteRows
  dsimp only
  induction rows generalizing mask with
  | nil => exact List.nil_sublist _
  | cons row rows ih =>
      cases mask with
      | nil => exact List.nil_sublist _
      | cons selected mask =>
          rw [List.zip_cons_cons, List.filterMap_cons]
          cases selected with
          | true => exact (ih mask).cons row
          | false => exact (ih mask).cons_cons row

theorem Delete.execute_valid (d : Delete) {s : Store} (h : s.Valid) :
    d.execute.Guarantees s fun _ after => after.Valid := by
  unfold Delete.execute
  refine guarantees_get_bind (guarantees_lift_bind fun _ _ => ?_)
  refine guarantees_lift_bind fun mask _ => guarantees_bind_pure ?_
  refine Store.mutate_valid h fun stored _ hvalid => ?_
  refine ensures_bind (ensures_get (ensures_bind (ensures_set (ensures_pure ?_))))
  exact hvalid.sublist (deleteRows_sublist mask stored.rows)

-- ============================================================== UPDATE

/-- An update of one row writes a row that the table holds, in its
place. -/
theorem updateRow_ensures (assignments : List PlaceAssignment) (index : Nat)
    (rows : Array Row) :
    (updateRow t assignments index).Ensures rows fun _ after =>
      ∃ row, t.Holds row ∧ after = rows.setIfInBounds index row := by
  unfold updateRow
  refine ensures_bind (ensures_get (ensures_bind (ensures_lift fun written _ => ?_)))
  refine ensures_bind (ensures_lift fun row hrow => ?_)
  intro _ after hafter
  cases hafter
  exact ⟨row, Table.holds_of_normalizeRow hrow, rfl⟩

/-- The rows after some updates: the table holds all of them, and those
at other places are those there were. -/
structure Updated (t : Table) (before : List Row) (places : List Nat) (rows : List Row) :
    Prop where
  holds : ∀ row ∈ rows, t.Holds row
  others : ∀ i, i ∉ places → rows[i]? = before[i]?

/-- One more update keeps this. -/
theorem Updated.set {before : List Row} {places : List Nat} {rows : Array Row}
    (h : Updated t before places rows.toList) {index : Nat} (hindex : index ∈ places) {row : Row}
    (hrow : t.Holds row) : Updated t before places (rows.setIfInBounds index row).toList := by
  refine ⟨Table.holds_set h.holds hrow, fun i hi => ?_⟩
  have hne : index ≠ i := fun heq => hi (heq ▸ hindex)
  rw [Array.toList_setIfInBounds, List.getElem?_set_ne hne]
  exact h.others i hi

/-- Updates end with valid rows, if they start with them. -/
theorem updateRows_ensures (assignments : List PlaceAssignment) (places : List Nat)
    {rows : Array Row} (h : t.ValidRows rows.toList) :
    (updateRows t assignments places).Ensures rows fun _ after => t.ValidRows after.toList := by
  unfold updateRows
  have hloop : (places.forM (updateRow t assignments)).Ensures rows fun _ after =>
      Updated t rows.toList places after.toList := by
    refine ensures_forM (fun index hindex current hcurrent => ?_) rows ⟨h.holds, fun _ _ => rfl⟩
    refine (updateRow_ensures assignments index current).mono fun _ after hafter => ?_
    obtain ⟨row, hrow, rfl⟩ := hafter
    exact hcurrent.set hindex hrow
  refine ensures_bind (hloop.mono fun _ written hwritten => ?_)
  refine ensures_bind (ensures_get (ensures_lift fun _ hcheck => ⟨hwritten.holds, ?_⟩))
  refine Table.unique_of_checkPlaces ?_ hcheck
  -- at places that were not updated are the rows there were
  intro key hkey i j a b hij hi hj ha hb
  rw [hwritten.others i hi] at ha
  rw [hwritten.others j hj] at hb
  exact Table.pairwise_at (h.unique key hkey) hij ha hb

theorem Update.execute_valid (u : Update) {s : Store} (h : s.Valid) :
    u.execute.Guarantees s fun _ after => after.Valid := by
  unfold Update.execute
  refine guarantees_get_bind (guarantees_lift_bind fun _ _ => ?_)
  refine guarantees_lift_bind fun assignments _ => guarantees_lift_bind fun mask _ => ?_
  refine guarantees_bind_pure (Store.mutate_valid h fun stored _ hvalid => ?_)
  refine (updateRows_ensures assignments _ hvalid.validRows).mono fun _ rows hrows => ?_
  exact .intro hvalid.schema hrows.holds hrows.unique

-- ============================================================== INSERT

/-- A row that INSERT or MERGE builds is one that the table holds. -/
theorem Table.buildRow_holds {places : List Nat} {values : List Value} {row : Row}
    (h : t.buildRow places values = .ok row) : t.Holds row := by
  obtain ⟨_, -, h⟩ := Result.bind_eq_ok.mp h
  exact holds_of_normalizeRow h

/-- A row that is put after valid rows leaves valid rows. -/
theorem Table.append_ensures {row : Row} (hrow : t.Holds row) {rows : Array Row}
    (h : t.ValidRows rows.toList) :
    (t.append row).Ensures rows fun _ after => t.ValidRows after.toList := by
  unfold append
  refine ensures_bind (ensures_get (ensures_bind (ensures_lift fun _ hcheck => ?_)))
  exact ensures_set (h.push hrow hcheck)

namespace Insert

/-- So does the update of the row that is in the way. -/
theorem upsertRow_ensures (assignments : List PlaceAssignment) (index : Nat) (proposed : Row)
    {rows : Array Row} (h : t.ValidRows rows.toList) :
    (upsertRow t assignments index proposed).Ensures rows fun _ after =>
      t.ValidRows after.toList := by
  unfold upsertRow
  refine ensures_bind (ensures_get (ensures_bind (ensures_lift fun assigned _ => ?_)))
  refine ensures_bind (ensures_lift fun updated hupdated => ?_)
  refine ensures_bind (ensures_lift fun _ hcheck => ?_)
  exact ensures_set (h.set (Table.holds_of_normalizeRow hupdated) hcheck)

/-- A row that is written, in whichever way, leaves valid rows. -/
theorem writeRow_ensures (r : Resolution) {row : Row} (hrow : t.Holds row) {rows : Array Row}
    (h : t.ValidRows rows.toList) :
    (writeRow t r row).Ensures rows fun _ after => t.ValidRows after.toList := by
  unfold writeRow
  refine ensures_bind (ensures_get ?_)
  split
  · next index _ =>
      split
      · exact ensures_pure h
      · split
        · refine ensures_bind ((Table.append_ensures hrow h).mono fun _ after hafter => ?_)
          exact ensures_pure hafter
        · refine ensures_bind ((upsertRow_ensures _ index row h).mono fun _ after hafter => ?_)
          exact ensures_pure hafter
  · refine ensures_bind ((Table.append_ensures hrow h).mono fun _ after hafter => ?_)
    exact ensures_pure hafter

theorem writeRows_ensures (r : Resolution) {written : List Row}
    (hwritten : ∀ row ∈ written, t.Holds row) {rows : Array Row} (h : t.ValidRows rows.toList) :
    (writeRows t r written).Ensures rows fun _ after => t.ValidRows after.toList := by
  unfold writeRows
  refine ensures_foldlM (I := fun rows => t.ValidRows rows.toList) ?_ 0 rows h
  intro row hrow count current hcurrent
  refine ensures_bind ((writeRow_ensures r (hwritten row hrow) hcurrent).mono ?_)
  exact fun _ after hafter => ensures_pure hafter

/-- The rows that INSERT builds are rows that the table holds. -/
theorem buildRows_holds {i : Insert} {places : List Nat} {values rows : List Row}
    (h : i.buildRows t places values = .ok rows) : ∀ row ∈ rows, t.Holds row := by
  intro row hrow
  obtain ⟨given, -, hgiven⟩ := (Result.mem_mapM h).mp hrow
  obtain ⟨_, -, hbuild⟩ := Result.bind_eq_ok.mp hgiven
  exact Table.buildRow_holds hbuild

theorem execute_valid (i : Insert) (version : DialectVersion) {s : Store} (h : s.Valid) :
    (i.execute version).Guarantees s fun _ after => after.Valid := by
  unfold execute
  refine guarantees_get_bind (guarantees_lift_bind fun found hfound => ?_)
  refine guarantees_lift_bind fun places _ => guarantees_lift_bind fun values _ => ?_
  refine guarantees_lift_bind fun rows hrows => guarantees_lift_bind fun resolution _ => ?_
  refine guarantees_bind_pure (Store.mutate_valid h fun stored hstored hvalid => ?_)
  obtain rfl : found = stored := Except.ok.inj (hfound.symm.trans hstored)
  have hbuilt := buildRows_holds hrows
  refine (writeRows_ensures resolution hbuilt hvalid.validRows).mono fun _ after hafter => ?_
  exact .intro hvalid.schema hafter.holds hafter.unique

end Insert

/-- Rows that are inserted from outside keep a store valid. -/
theorem Store.insertRows_valid (name : String) (rows : List Row) {s : Store} (h : s.Valid) :
    (insertRows name rows).Guarantees s fun _ after => after.Valid := by
  unfold insertRows
  refine mutate_valid h fun stored _ hvalid => ?_
  refine ensures_bind ((ensures_forM
    (I := fun rows : Array Row => stored.table.ValidRows rows.toList)
    (fun row _ current hcurrent => ?_) _ hvalid.validRows).mono fun _ after hafter => ?_)
  · refine ensures_bind (ensures_lift fun normal hnormal => ?_)
    exact Table.append_ensures (Table.holds_of_normalizeRow hnormal) hcurrent
  · exact ensures_pure (.intro hvalid.schema hafter.holds hafter.unique)

end DialectDb
