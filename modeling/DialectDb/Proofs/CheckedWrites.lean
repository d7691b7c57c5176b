/-
DELETE, UPDATE and INSERT with every look checked. The copy of a table's
rows that these write on has rows that the table holds all the time,
which is what the proofs that a store stays valid carry along. So every
row is as wide as the scope of the table, and has values at the keys.
-/
import DialectDb.Proofs.CheckedActions

namespace DialectDb.Checked

open DialectDb.Action CheckedAction

variable {store : Store} {version : DialectVersion} {t : Table}

-- ========================================================== assignments

/-- A row with another value at an index. -/
def setAt (row : Row) (index : Nat) (value : Value) : Checked Row :=
  if index < row.length then pure (row.set index value) else stop (.item row.length index)

/-- Makes assignments of a scope to a row, with values from another. -/
def applyAll (s : Scope) (input : Row) : List PlaceAssignment → Row → Checked Row
  | [], row => pure row
  | a :: rest, row => do
    let value ← onRow s a.formula.eval input
    applyAll s input rest (← setAt row a.index value)

theorem finds_setAt {row : Row} {index : Nat} (h : index < row.length) (value : Value) :
    (setAt row index value).Finds (.ok (row.set index value)) := by
  unfold setAt
  rw [if_pos h]
  exact .pure _

theorem finds_applyAll {s : Scope} {input : Row} (hinput : input.length = s.width)
    {assignments : List PlaceAssignment} (h : ∀ a ∈ assignments, a.Within t s.width) {row : Row}
    (hrow : row.length = t.columns.length) :
    (applyAll s input assignments row).Finds (PlaceAssignment.applyAll input assignments row) := by
  induction assignments generalizing row with
  | nil => exact .pure row
  | cons a rest ih =>
      obtain ⟨hfirst, hrest⟩ := List.forall_mem_cons.mp h
      have hvalue := (Formula.onValues_eval a.formula (hinput ▸ hfirst.formula)).placeSafe
      refine (finds_onRow hinput hvalue).bind fun value _ => ?_
      refine (finds_setAt (hrow ▸ hfirst.index) value).bind_ok (ih hrest ?_)
      rw [List.length_set, hrow]

/-- What assignments leave of a row that the table holds can be one of
its rows. -/
theorem finds_normalizeRow {input row after : Row} {assignments : List PlaceAssignment}
    (hrow : t.Holds row) (h : PlaceAssignment.applyAll input assignments row = .ok after) :
    (of (t.normalizeRow after)).Finds (t.normalizeRow after) := by
  have hwidth := (PlaceAssignment.length_applyAll h).trans hrow.length_eq.symm
  exact finds_of (Table.onRow_normalizeRow hwidth).onValues.placeSafe

-- ================================================================= keys

/-- The values of a row at a key. -/
def keyValues (key : List Nat) (row : Row) : Checked (List Value) :=
  key.mapM (itemAt row)

/-- Checks that a row collides with no other row on a key. -/
def checkKey (t : Table) (rows : Array Row) (row : Row) (skip : Option Nat) (key : List Nat) :
    Checked Unit := do
  let values ← keyValues key row
  if values.contains .null then return
  else
    let others ← (Table.others rows skip).toList.mapM (keyValues key)
    if others.any (· == values) then throw (.constraint (.duplicateKey values t.name))

def checkUnique (t : Table) (rows : Array Row) (row : Row) (skip : Option Nat) : Checked Unit :=
  t.uniqueKeys.forM (checkKey t rows row skip)

def checkPlaces (t : Table) (rows : Array Row) (places : List Nat) : Checked Unit :=
  places.forM fun index => do
    checkUnique t rows (← itemAt rows.toList index) (some index)

def append (t : Table) (row : Row) : CheckedAction (Array Row) Unit := do
  let rows ← get
  checkUnique t rows row none
  set (rows.push row)

section Keys

variable {key : List Nat} {rows : Array Row} {row : Row}

theorem finds_keyValues (hkey : ∀ index ∈ key, index < t.columns.length) (hrow : t.Holds row) :
    (keyValues key row).Finds (.ok (Table.keyValues key row)) := by
  refine .mapM_ok fun index hindex => ?_
  rw [List.getD_eq_getElem?_getD]
  exact finds_itemAt (hrow.length_eq ▸ hkey index hindex) .null

theorem finds_checkKey (hkey : ∀ index ∈ key, index < t.columns.length)
    (h : ∀ other ∈ rows.toList, t.Holds other) (hrow : t.Holds row) (skip : Option Nat) :
    (checkKey t rows row skip key).Finds (t.checkKey rows row skip key) := by
  have hothers : ∀ other ∈ (Table.others rows skip).toList, t.Holds other :=
    fun other hother => h other (Table.mem_of_mem_others (Array.mem_toList_iff.mp hother))
  unfold checkKey Table.checkKey
  refine (finds_keyValues hkey hrow).bind_ok ?_
  dsimp only
  rw [← Array.any_toList, Table.hasKey_eq]
  cases (Table.keyValues key row).contains .null with
  | true => exact .pure _
  | false =>
      have hvalues := Finds.mapM_ok fun other hother => finds_keyValues hkey (hothers other hother)
      refine hvalues.bind_ok ?_
      rw [List.any_map]
      exact .ite (fun _ => .throw _) fun _ => .pure _

theorem finds_checkUnique (h : ∀ other ∈ rows.toList, t.Holds other) (hrow : t.Holds row)
    (skip : Option Nat) : (checkUnique t rows row skip).Finds (t.checkUnique rows row skip) :=
  .forM fun _ hkey => finds_checkKey (fun _ hindex => Table.uniqueKeys_lt hkey hindex) h hrow skip

theorem finds_checkPlaces (h : ∀ other ∈ rows.toList, t.Holds other) {places : List Nat}
    (hplaces : ∀ index ∈ places, index < rows.size) :
    (checkPlaces t rows places).Finds (t.checkPlaces rows places) :=
  .forM fun index hindex =>
    (finds_rowAt (hplaces index hindex) []).bind_ok
      (finds_checkUnique h (Table.holds_getD (hplaces index hindex) h) _)

theorem findsAt_append (h : ∀ other ∈ rows.toList, t.Holds other) (hrow : t.Holds row) :
    FindsAt (append t row) (t.append row) rows :=
  .get_bind (.lift_bind (finds_checkUnique h hrow none) fun _ _ => .set _)

end Keys

-- ==================================================== DELETE and UPDATE

/-- Changes the rows of a table, on a copy of them. -/
def mutate {α : Type} (name : String) (change : Table → CheckedAction (Array Row) α) :
    CheckedAction Store α := do
  let stored ← of ((← get).get name)
  match ← (change stored.table).perform stored.rows.toArray with
  | (.ok a, rows) =>
    modify (·.setRows (Store.keyOf name) rows.toList)
    return a
  | (.error e, _) => throw e

/-- Whether a WHERE clause selects each row of a table. -/
def storedMask (stored : StoredTable) (store : Store) (predicate : Option Expr) :
    Checked (List Bool) :=
  match condition? { store } predicate with
  | none => pure (stored.rows.map fun _ => true)
  | some condition => condition.mask stored.table.scope stored.rows

/-- The rows that a mask leaves, and the number of those it does not. -/
def deleteRows (mask : List Bool) (rows : List Row) : Checked (Nat × List Row) := do
  let marked ← zip rows mask
  return ((mask.filter id).length,
    marked.filterMap fun (row, selected) => if selected then none else some row)

def deleteWhere (d : Delete) : CheckedAction Store Effect := do
  let store ← get
  let stored ← of (store.get d.table)
  let mask ← storedMask stored store d.predicate
  let count ← mutate d.table fun _ => do
    let (count, rows) ← deleteRows mask (← get).toList
    set rows.toArray
    return count
  return .deleted count

/-- Makes assignments to the row at a place, with values from that
row. -/
def updateRow (t : Table) (assignments : List PlaceAssignment) (index : Nat) :
    CheckedAction (Array Row) Unit := do
  let row ← itemAt (← get).toList index
  let updated ← applyAll t.scope row assignments row
  let updated ← of (t.normalizeRow updated)
  modify (·.setIfInBounds index updated)

def updateRows (t : Table) (assignments : List PlaceAssignment) (places : List Nat) :
    CheckedAction (Array Row) Unit := do
  places.forM (updateRow t assignments)
  checkPlaces t (← get) places

/-- There has to be a mark for each row, though only those that select a
row are used. -/
def update (u : Update) : CheckedAction Store Effect := do
  let store ← get
  let stored ← of (store.get u.table)
  let assignments ← of (Assignment.resolveList stored.table stored.table.scope u.assignments)
  let mask ← storedMask stored store u.predicate
  let _ ← zip stored.rows mask
  let places := selectedPlaces mask
  mutate u.table fun table => updateRows table assignments places
  return .updated places.length

section Masked

variable {stored : StoredTable}

theorem findsAt_mutate {α : Type} {name : String} {change : Table → CheckedAction (Array Row) α}
    {plain : Table → Action (Array Row) α} (hget : store.get name = .ok stored)
    (h : FindsAt (change stored.table) (plain stored.table) stored.rows.toArray) :
    FindsAt (mutate name change) (Store.mutate name plain) store := by
  refine .get_bind (.of_bind (Store.placeSafe_get _) fun found hfound _ => ?_)
  obtain rfl : found = stored := Except.ok.inj (hfound.symm.trans hget)
  unfold FindsAt at h
  rw [h]
  rcases (plain found.table).perform found.rows.toArray with ⟨e | a, rows⟩ <;> rfl

theorem finds_storedMask (hstore : store.Valid) (h : stored.Valid) (predicate : Option Expr) :
    (storedMask stored store predicate).Finds (stored.mask store predicate) := by
  have hasks := asks_condition? predicate hstore.context
  unfold storedMask StoredTable.mask
  generalize condition? { store } predicate = condition, Expr.condition? { store } predicate = plain
    at hasks ⊢
  cases hasks with
  | none => exact .pure _
  | some hasks =>
      refine hasks.finds_mask h.source.scope fun row hrow => ?_
      exact (h.width row hrow).trans (stored.table.width_ofColumns _).symm

theorem findsAt_deleteWhere (d : Delete) (hstore : store.Valid) :
    FindsAt (deleteWhere d) d.execute store := by
  refine .get_bind (.of_bind (Store.placeSafe_get _) fun stored hget _ => ?_)
  have hvalid := hstore.tables _ (Store.get_mem hget)
  have hmask := finds_storedMask hstore hvalid d.predicate
  refine .lift_bind_yields hmask (StoredTable.mask_yields hstore hvalid _) fun mask _ hlength => ?_
  have hmarked : (deleteRows mask stored.rows).Finds
      (.ok (DialectDb.deleteRows mask stored.rows)) :=
    (finds_zip hlength.symm).bind_ok (.pure _)
  refine .bind (findsAt_mutate hget (.get_bind ?_)) fun _ _ _ => .pure _
  exact .lift_bind_ok hmarked (.bind (.set _) fun _ _ _ => .pure _)

theorem findsAt_updateRow {assignments : List PlaceAssignment}
    (h : ∀ a ∈ assignments, a.Within t t.columns.length) {rows : Array Row} {index : Nat}
    (hindex : index < rows.size) (hrows : ∀ row ∈ rows.toList, t.Holds row) :
    FindsAt (updateRow t assignments index) (DialectDb.updateRow t assignments index) rows := by
  have hrow := Table.holds_getD hindex hrows
  have hscope : t.scope.width = t.columns.length := t.width_ofColumns t.name
  rw [← hscope] at h
  have hwidth := hrow.length_eq.symm.trans hscope.symm
  refine .get_bind (.lift_bind_ok (finds_rowAt hindex []) ?_)
  refine .lift_bind (finds_applyAll hwidth h hrow.length_eq.symm) fun assigned hassigned => ?_
  exact .lift_bind (finds_normalizeRow hrow hassigned) fun _ _ => .modify _

theorem findsAt_update (u : Update) (hstore : store.Valid) :
    FindsAt (update u) u.execute store := by
  refine .get_bind (.of_bind (Store.placeSafe_get _) fun stored hget _ => ?_)
  have hvalid := hstore.tables _ (Store.get_mem hget)
  refine .of_bind (u.assignments_yields stored.table) fun assignments _ hwithin => ?_
  have hmask := finds_storedMask hstore hvalid u.predicate
  refine .lift_bind_yields hmask (StoredTable.mask_yields hstore hvalid _) fun mask _ hlength => ?_
  refine .lift_bind_ok (finds_zip hlength.symm) ?_
  have hplaces : ∀ index ∈ selectedPlaces mask, index < stored.rows.length :=
    fun index hindex => hlength ▸ selectedPlaces_lt hindex
  refine .bind (findsAt_mutate hget (.bind ?_ ?_)) fun _ _ _ => .pure _
  · refine .forM (I := fun rows : Array Row => rows.size = stored.rows.length ∧
      ∀ row ∈ rows.toList, stored.table.Holds row) (fun index hindex rows hrows => ?_)
      (fun index _ rows hrows => updateRow_keeps _ index hrows) ⟨rfl, hvalid.holds⟩
    exact findsAt_updateRow hwithin (hrows.1 ▸ hplaces index hindex) hrows.2
  · refine (updates_keep assignments _ ⟨rfl, hvalid.holds⟩).mono fun _ rows hrows => ?_
    obtain ⟨hsize, hholds⟩ := hrows
    refine .get_bind (.lift (finds_checkPlaces hholds fun index hindex => ?_))
    rw [hsize]
    exact hplaces index hindex

end Masked

-- ============================================================== INSERT

/-- A row from the values at given places, which are places of
columns. -/
def buildRow (t : Table) (places : List Nat) (values : List Value) : Checked Row := do
  let _ ← places.mapM (itemAt t.columns)
  of (t.buildRow places values)

def insertValues (i : Insert) (version : DialectVersion) (store : Store) :
    Checked (List Row) := do
  match i.query with
  | some q => of (← evaluate version store q).rows.collect
  | none => i.rows.mapM (·.mapM evalConstant)

def buildRows (i : Insert) (t : Table) (places : List Nat) (rows : List Row) :
    Checked (List Row) :=
  rows.mapM fun values => do
    of (checkValueCount i.columns places.length values.length)
    buildRow t places values

/-- The first row that has the same values at a key, none of them
NULL. -/
def collision? (rows : Array Row) (row : Row) (key : List Nat) : Checked (Option Nat) := do
  let values ← keyValues key row
  if values.contains .null then return none
  else return (← rows.toList.mapM (keyValues key)).findIdx? (· == values)

def conflict? (rows : Array Row) (row : Row) : List (List Nat) → Checked (Option Nat)
  | [] => pure none
  | key :: keys => do
    match ← collision? rows row key with
    | some index => return some index
    | none => conflict? rows row keys

/-- Makes assignments to the row in the way. Their scope is one of that
row and then the proposed one. -/
def upsertRow (s : Scope) (t : Table) (assignments : List PlaceAssignment) (index : Nat)
    (proposed : Row) : CheckedAction (Array Row) Unit := do
  let rows ← get
  let existing ← itemAt rows.toList index
  let updated ← applyAll s (existing ++ proposed) assignments existing
  let updated ← of (t.normalizeRow updated)
  checkUnique t rows updated (some index)
  set (rows.setIfInBounds index updated)

def writeRow (s : Scope) (t : Table) (r : Insert.Resolution) (row : Row) :
    CheckedAction (Array Row) Nat := do
  match ← conflict? (← get) row r.keys with
  | some index =>
    if r.ignore then return 0
    else
      if r.assignments.isEmpty then append t row
      else upsertRow s t r.assignments index row
      return 1
  | none =>
    append t row
    return 1

def writeRows (s : Scope) (t : Table) (r : Insert.Resolution) (rows : List Row) :
    CheckedAction (Array Row) Nat :=
  rows.foldlM (fun count row => do return count + (← writeRow s t r row)) 0

def insert (i : Insert) (version : DialectVersion) : CheckedAction Store Effect := do
  let store ← get
  let table := (← of (store.get i.table)).table
  let places ← of (table.valuePlaces i.columns)
  let rows ← buildRows i table places (← insertValues i version store)
  let resolution ← of (i.resolution table)
  let scope ← of (Insert.conflictScope table)
  let count ← mutate i.table fun table => writeRows scope table resolution rows
  return .inserted count

section Insertion

variable {row : Row} {rows : Array Row} {r : Insert.Resolution}

theorem finds_buildRow {places : List Nat} (h : ∀ index ∈ places, index < t.columns.length)
    (values : List Value) : (buildRow t places values).Finds (t.buildRow places values) := by
  have hplaces := Finds.mapM_ok fun index hindex => finds_itemAt (h index hindex)
    { name := "", type := .integer }
  exact hplaces.bind_ok (finds_of (Table.onRow_buildRow _ _).onValues.placeSafe)

theorem finds_buildRows {i : Insert} {places : List Nat}
    (h : ∀ index ∈ places, index < t.columns.length) (rows : List Row) :
    (buildRows i t places rows).Finds (i.buildRows t places rows) :=
  .mapM fun values _ =>
    .of_bind (placeSafe_checkValueCount _ _ _) fun _ _ _ => finds_buildRow h values

theorem finds_insertValues (i : Insert) (hstore : store.Valid) :
    (insertValues i version store).Finds (i.values version store) := by
  unfold insertValues Insert.values
  cases i.query with
  | none => exact .mapM fun row _ => .mapM fun e _ => finds_evalConstant e
  | some q =>
      have hyields := q.evaluate_yields version hstore
      exact (finds_evaluate hstore q).bind_yields hyields fun _ _ hsound => finds_of hsound.collect

theorem finds_collision? {key : List Nat} (hkey : ∀ index ∈ key, index < t.columns.length)
    (h : ∀ other ∈ rows.toList, t.Holds other) (hrow : t.Holds row) :
    (collision? rows row key).Finds (.ok (Insert.collision? rows row key)) := by
  refine (finds_keyValues hkey hrow).bind_ok ?_
  unfold Insert.collision?
  dsimp only
  cases (Table.keyValues key row).contains .null with
  | true => exact .pure none
  | false =>
      have hvalues := Finds.mapM_ok fun other hother => finds_keyValues hkey (h other hother)
      refine hvalues.bind_ok ?_
      rw [List.findIdx?_map, ← List.findIdx?_toArray, Table.hasKey_eq]
      exact .pure _

theorem finds_conflict? {keys : List (List Nat)}
    (hkeys : ∀ key ∈ keys, ∀ index ∈ key, index < t.columns.length)
    (h : ∀ other ∈ rows.toList, t.Holds other) (hrow : t.Holds row) :
    (conflict? rows row keys).Finds (.ok (Insert.conflict? keys rows row)) := by
  unfold Insert.conflict?
  induction keys with
  | nil => exact .pure none
  | cons key keys ih =>
      obtain ⟨hkey, hrest⟩ := List.forall_mem_cons.mp hkeys
      refine (finds_collision? hkey h hrow).bind_ok ?_
      rw [List.findSome?_cons]
      cases Insert.collision? rows row key with
      | some index => exact .pure _
      | none => exact ih hrest

theorem findsAt_upsertRow {s : Scope} (hs : s.width = t.columns.length + t.columns.length)
    {assignments : List PlaceAssignment} (hwithin : ∀ a ∈ assignments, a.Within t s.width)
    {index : Nat} (hindex : index < rows.size) (h : ∀ other ∈ rows.toList, t.Holds other)
    (hrow : t.Holds row) :
    FindsAt (upsertRow s t assignments index row) (Insert.upsertRow t assignments index row)
      rows := by
  have hexisting := Table.holds_getD hindex h
  have hwidth : (rows[index]?.getD [] ++ row).length = s.width := by
    rw [List.length_append, ← hexisting.length_eq, ← hrow.length_eq, hs]
  refine .get_bind (.lift_bind_ok (finds_rowAt hindex []) ?_)
  refine .lift_bind (finds_applyAll hwidth hwithin hexisting.length_eq.symm) fun _ hassigned => ?_
  refine .lift_bind (finds_normalizeRow hexisting hassigned) fun updated hupdated => ?_
  have hholds := Table.holds_of_normalizeRow hupdated
  exact .lift_bind (finds_checkUnique h hholds _) fun _ _ => .set _

theorem findsAt_writeRow {s : Scope} (hs : s.width = t.columns.length + t.columns.length)
    (hkeys : ∀ key ∈ r.keys, ∀ index ∈ key, index < t.columns.length)
    (hwithin : ∀ a ∈ r.assignments, a.Within t s.width) (hrow : t.Holds row)
    (h : ∀ other ∈ rows.toList, t.Holds other) :
    FindsAt (writeRow s t r row) (Insert.writeRow t r row) rows := by
  have happended := FindsAt.bind (findsAt_append h hrow) fun _ _ _ => .pure 1
  refine .get_bind (.lift_bind_ok (finds_conflict? hkeys h hrow) ?_)
  cases hconflict : Insert.conflict? r.keys rows row with
  | none => exact happended
  | some index =>
      have hindex := Insert.conflict?_lt hconflict
      have hupserted := findsAt_upsertRow hs hwithin hindex h hrow
      dsimp only
      split
      · exact .pure 0
      · split
        · exact happended
        · exact .bind hupserted fun _ _ _ => .pure 1

theorem findsAt_writeRows {s : Scope} (hs : s.width = t.columns.length + t.columns.length)
    (hkeys : ∀ key ∈ r.keys, ∀ index ∈ key, index < t.columns.length)
    (hwithin : ∀ a ∈ r.assignments, a.Within t s.width) {written : List Row}
    (hwritten : ∀ row ∈ written, t.Holds row) (h : t.ValidRows rows.toList) :
    FindsAt (writeRows s t r written) (Insert.writeRows t r written) rows := by
  refine .foldlM (I := fun rows : Array Row => t.ValidRows rows.toList)
    (fun row hrow count rows hrows => ?_) (fun row hrow count rows hrows => ?_) h
  · exact .bind (findsAt_writeRow hs hkeys hwithin (hwritten row hrow) hrows.holds) fun _ _ _ =>
      .pure _
  · refine ensures_bind ((Insert.writeRow_ensures r (hwritten row hrow) hrows).mono ?_)
    exact fun _ after hafter => ensures_pure hafter

theorem findsAt_insert (i : Insert) (hstore : store.Valid) :
    FindsAt (insert i version) (i.execute version) store := by
  refine .get_bind (.of_bind (Store.placeSafe_get _) fun stored hget _ => ?_)
  refine .of_bind (stored.table.valuePlaces_yields i.columns) fun places _ hplaces => ?_
  refine .lift_bind (finds_insertValues i hstore) fun values _ => ?_
  refine .lift_bind (finds_buildRows hplaces values) fun built hbuilt => ?_
  refine .of_bind (i.resolution_yields stored.table) fun r hr ⟨hkeys, hassignments⟩ => ?_
  obtain ⟨_, -, hr⟩ := Result.bind_eq_ok.mp hr
  obtain ⟨s, hmerged, -⟩ := Result.bind_eq_ok.mp hr
  have hscope := Insert.conflictScope_yields stored.table
  refine .lift_bind_ok ((finds_of hscope).trans (congrArg _ hmerged)) ?_
  obtain ⟨-, hs⟩ := hscope.of_ok s hmerged
  refine .bind (findsAt_mutate hget ?_) fun _ _ _ => .pure _
  exact findsAt_writeRows hs hkeys (hs ▸ hassignments) (Insert.buildRows_holds hbuilt)
    (hstore.tables _ (Store.get_mem hget)).validRows

end Insertion

end DialectDb.Checked
