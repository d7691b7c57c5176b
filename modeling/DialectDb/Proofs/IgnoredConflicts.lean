/-
INSERT that leaves out the rows that conflict. Whether a row conflicts is
searched for row by row before it is written, and checked again when it
is put behind the others. Both ask the same (`conflict?_eq_none`): does
the row collide on a key with a row of the table, those of the statement
before it among them? So a row that is not left out is never refused, and
the statement succeeds whenever its rows can be made.

What it writes is then a function of the rows there are and the rows it
is given (`Table.newRows`). In a table with a primary key every row
collides with itself. After the statement each of its rows is there, or
one that was in its way; either one is in its way again.
-/
import DialectDb.Proofs.CreatedTables
import DialectDb.Proofs.GuardedStatements
import DialectDb.Proofs.Insertion
import DialectDb.Proofs.KeyLookup

namespace DialectDb

open DialectDb.Action

-- ============================================================ conflicts

namespace Table

variable {t : Table} {rows given : List Row} {row : Row}

instance (key : List Nat) (a b : Row) : Decidable (Collide key a b) :=
  inferInstanceAs (Decidable (_ ∧ _))

/-- A row that collides with one of some rows on a key of the table. -/
def Conflicts (t : Table) (rows : List Row) (row : Row) : Prop :=
  ∃ key ∈ t.uniqueKeys, ∃ other ∈ rows, Collide key row other

instance (t : Table) (rows : List Row) (row : Row) : Decidable (t.Conflicts rows row) :=
  inferInstanceAs (Decidable (∃ key ∈ t.uniqueKeys, ∃ other ∈ rows, Collide key row other))

theorem Conflicts.mono {more : List Row} (h : t.Conflicts rows row) (hsub : rows ⊆ more) :
    t.Conflicts more row := by
  obtain ⟨key, hkey, other, hother, hcollide⟩ := h
  exact ⟨key, hkey, other, hsub hother, hcollide⟩

/-- The given rows that do not conflict, with those there are nor with
those before them that do not. -/
def newRows (t : Table) (rows : List Row) : List Row → List Row
  | [] => []
  | row :: given =>
    if t.Conflicts rows row then t.newRows rows given
    else row :: t.newRows (rows ++ [row]) given

/-- There is nothing new in rows that all conflict. -/
theorem newRows_eq_nil (h : ∀ row ∈ given, t.Conflicts rows row) : t.newRows rows given = [] := by
  induction given with
  | nil => rfl
  | cons row given ih =>
      obtain ⟨hrow, hgiven⟩ := List.forall_mem_cons.mp h
      rw [newRows, if_pos hrow]
      exact ih hgiven

/-- Rows that collide with themselves conflict with the rows that there
are once the new ones of them have been added. -/
theorem conflicts_newRows (h : ∀ row ∈ given, t.Conflicts [row] row) :
    ∀ row ∈ given, t.Conflicts (rows ++ t.newRows rows given) row := by
  induction given generalizing rows with
  | nil => exact fun row hrow => absurd hrow List.not_mem_nil
  | cons first given ih =>
      obtain ⟨hfirst, hgiven⟩ := List.forall_mem_cons.mp h
      rw [newRows]
      split
      · next hconflict =>
          refine List.forall_mem_cons.mpr ⟨hconflict.mono ?_, ih hgiven⟩
          exact List.subset_append_left _ _
      · rw [List.append_cons]
        refine List.forall_mem_cons.mpr ⟨hfirst.mono ?_, ih hgiven⟩
        intro other hother
        rw [List.mem_singleton.mp hother]
        simp

/-- Under a primary key every row that the table holds collides with
itself, since the key takes no NULL. -/
theorem conflicts_self (hvalid : t.validate = .ok ()) (hkey : ∃ c ∈ t.columns, c.primaryKey = true)
    (hrow : t.Holds row) : t.Conflicts [row] row := by
  have hadmissible := (validate_eq_ok.mp hvalid).2.2.1
  obtain ⟨c, hc, hprimary⟩ := hkey
  obtain ⟨k, hk⟩ := List.getElem?_of_mem hc
  have hmem : k ∈ t.columnsWhere (·.primaryKey) := mem_columnsWhere.mpr ⟨c, hk, hprimary⟩
  have hkeys : t.columnsWhere (·.primaryKey) ∈ t.uniqueKeys := by
    unfold uniqueKeys
    dsimp only
    rw [if_neg]
    · exact List.mem_cons_self
    · rw [List.isEmpty_iff]
      exact List.ne_nil_of_mem hmem
  refine ⟨_, hkeys, row, List.mem_singleton_self row, rfl, fun hnull => ?_⟩
  obtain ⟨index, hindex, hvalue⟩ := List.mem_map.mp hnull
  obtain ⟨d, hd, hprimary⟩ := mem_columnsWhere.mp hindex
  obtain ⟨hplace, rfl⟩ := List.getElem?_eq_some_iff.mp hd
  have hwidth : index < row.length := hrow.length_eq ▸ hplace
  have hholds : (t.columns[index]).Holds row[index] := hrow.get hplace hwidth
  rw [List.getD_eq_getElem?_getD, List.getElem?_eq_getElem hwidth] at hvalue
  have hnullable := hholds.nullable hvalue
  rw [(hadmissible _ (List.getElem_mem hplace)).key hprimary] at hnullable
  cases hnullable

end Table

namespace Insert

-- ============================================================== writing

section Writing

variable {t : Table} {existing : Array Row} {row : Row} {assignments : List PlaceAssignment}

theorem collision?_eq_none {key : List Nat} :
    collision? existing row key = none ↔ ∀ other ∈ existing, ¬Table.Collide key row other := by
  unfold collision?
  dsimp only
  split
  · next hnull =>
      refine iff_of_true rfl fun other _ hcollide => hcollide.2 ?_
      simpa using hnull
  · next hnull =>
      rw [Array.findIdx?_eq_none_iff]
      refine forall₂_congr fun other _ => ?_
      rw [Bool.eq_false_iff, ne_eq, Table.hasKey_iff, Table.Collide]
      have hvalues : .null ∉ Table.keyValues key row := by simpa using hnull
      exact not_congr ⟨fun h => ⟨h.symm, hvalues⟩, fun h => h.1.symm⟩

/-- The search for a conflict finds none iff the check of the row
succeeds. -/
theorem conflict?_eq_none :
    conflict? t.uniqueKeys existing row = none ↔ ¬t.Conflicts existing.toList row := by
  unfold conflict? Table.Conflicts
  rw [List.findSome?_eq_none_iff]
  simp only [collision?_eq_none, not_exists, not_and, Array.mem_toList_iff]

/-- A row that conflicts is left out, and another is put behind those
there are. It is never refused. -/
theorem perform_writeRow_ignoring :
    (writeRow t ⟨t.uniqueKeys, assignments, true⟩ row).perform existing =
      if t.Conflicts existing.toList row then (.ok 0, existing) else (.ok 1, existing.push row) := by
  unfold writeRow
  refine (perform_get_bind _ existing).trans ?_
  dsimp only
  cases hsearch : conflict? t.uniqueKeys existing row with
  | some index =>
      have hconflict : t.Conflicts existing.toList row := by
        by_contra hnone
        rw [conflict?_eq_none.mpr hnone] at hsearch
        cases hsearch
      rw [if_pos hconflict]
      rfl
  | none =>
      have hnone := conflict?_eq_none.mp hsearch
      rw [if_neg hnone]
      have happend : (t.append row).perform existing = (.ok ⟨⟩, existing.push row) := by
        refine Table.perform_append_eq_ok.mpr ⟨fun key hkey other hother hcollide => ?_, rfl⟩
        exact hnone ⟨key, hkey, other, hother, hcollide⟩
      exact perform_bind_eq_ok.mpr ⟨_, _, happend, rfl⟩

/-- All rows are written that are new, and they are counted. -/
theorem perform_writeRows_ignoring {given : List Row} :
    (writeRows t ⟨t.uniqueKeys, assignments, true⟩ given).perform existing =
      (.ok (t.newRows existing.toList given).length,
        (existing.toList ++ t.newRows existing.toList given).toArray) := by
  have hfrom : ∀ start, (given.foldlM (fun count row => do
        return count + (← writeRow t ⟨t.uniqueKeys, assignments, true⟩ row)) start).perform
          existing =
        (.ok (start + (t.newRows existing.toList given).length),
          (existing.toList ++ t.newRows existing.toList given).toArray) := by
    induction given generalizing existing with
    | nil => exact fun start => by simp [Table.newRows, perform_pure]
    | cons row given ih =>
        intro start
        rw [List.foldlM_cons, Table.newRows, bind_assoc, perform_bind, perform_writeRow_ignoring]
        by_cases hconflict : t.Conflicts existing.toList row
        · simp only [if_pos hconflict, pure_bind, ih, Nat.add_zero]
        · simp only [if_neg hconflict, pure_bind, ih, Array.toList_push, List.length_cons,
            List.append_assoc, List.singleton_append, Nat.add_comm 1, Nat.add_assoc]
  rw [← Nat.zero_add (t.newRows existing.toList given).length]
  exact hfrom 0

end Writing

-- ============================================================ statement

/-- The rows that INSERT makes of its values for a table. They depend on
the table's columns only. -/
def Makes (i : Insert) (t : Table) (made : List Row) : Prop :=
  ∃ places values, t.valuePlaces i.columns = .ok places ∧
    i.rows.mapM (·.mapM Scope.evalConstant) = .ok values ∧
      i.buildRows t places values = .ok made ∧ ¬t.NamedExcluded

theorem Makes.holds {i : Insert} {t : Table} {made : List Row} (h : i.Makes t made) :
    ∀ row ∈ made, t.Holds row := by
  obtain ⟨places, values, -, -, hmade, -⟩ := h
  exact buildRows_holds hmade

/-- INSERT of given rows that leaves out those that conflict, on whatever
key. -/
structure IgnoresConflicts (i : Insert) : Prop where
  query : i.query = none
  conflictTarget : i.conflictTarget = []
  assignments : i.assignments = []
  ignoreConflicts : i.ignoreConflicts = true

namespace IgnoresConflicts

variable {i : Insert} {version : DialectVersion} {store after : Store} {stored : StoredTable}

theorem values_eq (h : i.IgnoresConflicts) :
    i.values version store = i.rows.mapM (·.mapM Scope.evalConstant) := by
  unfold values
  rw [h.query]

theorem resolution_eq (h : i.IgnoresConflicts) (t : Table) :
    i.resolution t = conflictScope t >>= fun _ => .ok ⟨t.uniqueKeys, [], true⟩ := by
  unfold resolution conflictKeys
  rw [h.conflictTarget, h.assignments, h.ignoreConflicts]
  rfl

/-- Such a statement succeeds iff its rows can be made, and it then adds
and counts those that are new. -/
theorem perform_execute_eq_ok (h : i.IgnoresConflicts) {effect : Effect}
    (hget : store.get i.table = .ok stored) :
    (i.execute version).perform store = (.ok effect, after) ↔
      ∃ made, i.Makes stored.table made ∧
        effect = .inserted (stored.table.newRows stored.rows made).length ∧
        after = store.setRows (Store.keyOf i.table)
          (stored.rows ++ stored.table.newRows stored.rows made) := by
  unfold execute
  rw [perform_get_bind, perform_lift_bind, hget]
  dsimp only
  simp only [perform_lift_bind_eq_ok, h.values_eq, h.resolution_eq, Result.bind_eq_ok]
  simp only [perform_bind_eq_ok, Store.perform_mutate_eq_ok hget]
  constructor
  · rintro ⟨places, hplaces, values, hvalues, made, hmade, _, ⟨scope, hscope, hresolution⟩,
      count, _, ⟨rows, hwrite, rfl⟩, heffect⟩
    cases hresolution
    rw [perform_writeRows_ignoring] at hwrite
    cases hwrite
    cases heffect
    exact ⟨made, ⟨places, values, hplaces, hvalues, hmade, conflictScope_eq_ok.mp ⟨scope, hscope⟩⟩,
      rfl, rfl⟩
  · rintro ⟨made, ⟨places, values, hplaces, hvalues, hmade, hname⟩, rfl, rfl⟩
    obtain ⟨scope, hscope⟩ := conflictScope_eq_ok.mpr hname
    exact ⟨places, hplaces, values, hvalues, made, hmade, _, ⟨scope, hscope, rfl⟩, _, _,
      ⟨_, perform_writeRows_ignoring, rfl⟩, rfl⟩

/-- After such a statement on a table with a primary key there is nothing
new in it. -/
theorem perform_again (h : i.IgnoresConflicts) (hget : store.get i.table = .ok stored)
    (hvalid : stored.table.validate = .ok ())
    (hkey : ∃ c ∈ stored.table.columns, c.primaryKey = true) {effect : Effect}
    (hrun : (i.execute version).perform store = (.ok effect, after)) :
    (i.execute version).perform after = (.ok (.inserted 0), after) := by
  obtain ⟨made, hmakes, -, rfl⟩ := (h.perform_execute_eq_ok hget).mp hrun
  have hself : ∀ row ∈ made, stored.table.Conflicts [row] row := fun row hrow =>
    Table.conflicts_self hvalid hkey (hmakes.holds row hrow)
  have hnothing : stored.table.newRows (stored.rows ++ stored.table.newRows stored.rows made) made =
      [] := Table.newRows_eq_nil (Table.conflicts_newRows hself)
  refine (h.perform_execute_eq_ok (Store.get_setRows hget _)).mpr ⟨made, hmakes, ?_, ?_⟩
  · rw [hnothing]
    rfl
  · rw [hnothing, List.append_nil, Store.setRows_setRows]

end IgnoresConflicts

end Insert

-- ============================================================= failures

/-- A failure, but not for a row that collides with another. -/
def Error.NoCollision : Error → Prop
  | .constraint (.duplicateKey _ _) => False
  | _ => True

theorem Error.OfPreparation.noCollision {e : Error} (h : e.OfPreparation) : e.NoCollision := by
  unfold NoCollision
  split
  · exact h
  · trivial

theorem Prepares.noCollision {α : Type} {r : Result α} (h : Prepares r) :
    Yields Error.NoCollision (fun _ => True) r :=
  h.weaken fun _ he => he.noCollision

/-- The statement does not fail for a row that collides with another:
what could is before the first row is written, and looks at no other
row. -/
theorem Insert.IgnoresConflicts.noCollision_execute {i : Insert} (h : i.IgnoresConflicts)
    (version : DialectVersion) (store : Store) :
    (i.execute version).FailsOnly Error.NoCollision store := by
  have hvalues : Yields Error.NoCollision (fun _ => True) (i.values version store) := by
    rw [h.values_eq]
    refine (Yields.mapM (Q := fun _ => True) fun row _ => ?_).forget
    refine (Yields.mapM (Q := fun _ => True) fun e _ => ?_).forget
    exact Scope.evalConstant_allowed (fun _ he => he.noCollision) fun _ _ => trivial
  unfold execute
  refine failsOnly_get_bind ?_
  refine failsOnly_lift_bind (store.prepares_get _).noCollision fun stored hget _ => ?_
  refine failsOnly_lift_bind (stored.table.prepares_valuePlaces _).noCollision fun places _ _ => ?_
  refine failsOnly_lift_bind hvalues fun values _ _ => ?_
  refine failsOnly_lift_bind (i.prepares_buildRows _ _ _).noCollision fun made _ _ => ?_
  rw [h.resolution_eq]
  have hresolution : Prepares (conflictScope stored.table >>= fun _ =>
      (.ok ⟨stored.table.uniqueKeys, [], true⟩ : Result Resolution)) :=
    .bind (Scope.prepares_merge _ _) fun _ _ _ => .ok _
  refine failsOnly_lift_bind hresolution.noCollision fun r hr _ => ?_
  obtain ⟨_, -, hr⟩ := Result.bind_eq_ok.mp hr
  cases hr
  refine failsOnly_bind (Store.failsOnly_mutate hget ?_) fun _ _ _ => failsOnly_pure _
  unfold Action.FailsOnly
  rw [perform_writeRows_ignoring]
  exact .ok _

-- =================================================== once and once more

namespace Statement

/-- INSERT of given rows that leaves out those that conflict never fails
for a duplicate key. And in a table with a primary key, once it has
succeeded, it succeeds again, inserts nothing, and leaves the store as it
is. -/
theorem insert_ignoring_conflicts {i : Insert} (h : i.IgnoresConflicts) (version : DialectVersion)
    {store : Store} (hvalid : store.Valid) :
    (∀ key table after, ((insert i).execute version).perform store ≠
        (.error (.constraint (.duplicateKey key table)), after)) ∧
      ∀ stored, store.get i.table = .ok stored →
        (∃ c ∈ stored.table.columns, c.primaryKey = true) →
        ∀ outcome after, ((insert i).execute version).perform store = (.ok outcome, after) →
          ((insert i).execute version).perform after = (.ok (.effect (.inserted 0)), after) := by
  have hexecute (s : Store) : ((insert i).execute version).perform s =
      (Outcome.effect <$> ((i.execute version).perform s).1, ((i.execute version).perform s).2) :=
    perform_map _ _ s
  constructor
  · intro key table after hfail
    have hsafe : (Outcome.effect <$> i.execute version).FailsOnly Error.NoCollision store :=
      failsOnly_map (h.noCollision_execute version store)
    exact hsafe.of_error (.constraint (.duplicateKey key table)) (congrArg Prod.fst hfail)
  · intro stored hget hkey outcome after hrun
    have htable := (hvalid.tables _ (Store.get_mem hget)).schema
    rw [hexecute] at hrun
    rcases heffect : (i.execute version).perform store with ⟨e | effect, mid⟩
    · rw [heffect] at hrun
      cases hrun
    · rw [heffect] at hrun
      cases hrun
      rw [hexecute, h.perform_again hget htable hkey heffect]
      rfl

end Statement

namespace IgnoredConflicts

/-- `INSERT INTO pages (id) VALUES (3), (4), (4) ON CONFLICT DO NOTHING` -/
def morePages : Insert where
  table := "pages"
  columns := some ["id"]
  rows := [[.literal (.integer 3)], [.literal (.integer 4)], [.literal (.integer 4)]]
  query := none
  ignoreConflicts := true

/-- The first page is there, the second is new, and the third conflicts
with the second. -/
theorem morePages_once :
    ((Statement.insert morePages).execute ⟨.sqLite, 3⟩).perform ⟨[⟨"pages", Where.pages⟩]⟩ =
        (.ok (.effect (.inserted 1)), ⟨[⟨"pages", { Where.pages with
          rows := Where.pages.rows ++ [[.integer 4, .null]] }⟩]⟩) ∧
      ((Statement.insert morePages).execute ⟨.sqLite, 3⟩).perform ⟨[⟨"pages", { Where.pages with
          rows := Where.pages.rows ++ [[.integer 4, .null]] }⟩]⟩ =
        (.ok (.effect (.inserted 0)), ⟨[⟨"pages", { Where.pages with
          rows := Where.pages.rows ++ [[.integer 4, .null]] }⟩]⟩) := by
  have heffect : (morePages.execute ⟨.sqLite, 3⟩).perform ⟨[⟨"pages", Where.pages⟩]⟩ =
      (.ok (.inserted 1), ⟨[⟨"pages", { Where.pages with
        rows := Where.pages.rows ++ [[.integer 4, .null]] }⟩]⟩) := by
    decide +kernel
  have hrun : ((Statement.insert morePages).execute ⟨.sqLite, 3⟩).perform
      ⟨[⟨"pages", Where.pages⟩]⟩ = (.ok (.effect (.inserted 1)), ⟨[⟨"pages", { Where.pages with
        rows := Where.pages.rows ++ [[.integer 4, .null]] }⟩]⟩) := by
    show (Outcome.effect <$> morePages.execute _).perform _ = _
    rw [perform_map, heffect]
    rfl
  have hagain := (Statement.insert_ignoring_conflicts (i := morePages) ⟨rfl, rfl, rfl, rfl⟩
    ⟨.sqLite, 3⟩ Where.pages_valid).2 Where.pages rfl ⟨_, List.mem_cons_self, rfl⟩
  exact ⟨hrun, hagain _ _ hrun⟩

end IgnoredConflicts

end DialectDb
