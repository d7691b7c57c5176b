/-
What a statement leaves as it was. A statement that fails changes
nothing, at whatever point it fails. One that succeeds changes only what
its kind allows for: a query nothing, CREATE TABLE and DROP TABLE the
one table that they name, and the statements that write rows only the
rows of the table that they name.

The proofs go statement by statement and use nothing of what is written.
All that matters is that each statement has computed what can fail on
the store before it changes it, or works on the copy that `mutate` makes
of one table's rows.
-/
import DialectDb.Execution
import DialectDb.Proofs.Result
import DialectDb.Proofs.Store

namespace DialectDb

open DialectDb.Action

-- ============================================================== frames

/-- An entry before and after a change of the rows under a key: its key
and its table are the same, and so are its rows, unless it has that
key. -/
structure Entry.SameBut (key : String) (before after : Entry) : Prop where
  sameKey : after.key = before.key
  sameTable : after.stored.table = before.stored.table
  sameRows : before.key ≠ key → after.stored.rows = before.stored.rows

/-- A store before and after a change of the rows of one table. -/
def Store.SameBut (name : String) (before after : Store) : Prop :=
  List.Forall₂ (Entry.SameBut (keyOf name)) before.entries after.entries

/-- A store before and after the creation of a table without rows: its
entry is put between those there were, none of which had its key. -/
def Store.AddsEmpty (name : String) (before after : Store) : Prop :=
  (∀ e ∈ before.entries, e.key ≠ keyOf name) ∧
    ∃ first last table, before.entries = first ++ last ∧ table.name = name ∧
      after.entries = first ++ ⟨keyOf name, ⟨table, []⟩⟩ :: last

/-- A store before and after a table is dropped: the entries with other
keys are left. -/
def Store.Drops (name : String) (before after : Store) : Prop :=
  after.entries = before.entries.filter (·.key ≠ keyOf name)

/-- What a statement that succeeds may change. -/
def Statement.Changes : Statement → Store → Store → Prop
  | select _, before, after => after = before
  | createTable name _, before, after => before.AddsEmpty name after
  | dropTable name _, before, after => before.Drops name after
  | insert i, before, after => before.SameBut i.table after
  | update u, before, after => before.SameBut u.table after
  | delete d, before, after => before.SameBut d.table after
  | merge m, before, after => before.SameBut m.target.name after

/-- New rows under a key leave everything else as it was. -/
theorem Store.setRows_sameBut (s : Store) (name : String) (rows : List Row) :
    s.SameBut name (s.setRows (keyOf name) rows) := by
  unfold Store.SameBut Store.setRows
  rw [List.forall₂_map_right_iff]
  refine List.forall₂_same.mpr fun e _ => ?_
  split
  · next hkey => exact ⟨rfl, rfl, fun hne => absurd hkey hne⟩
  · exact ⟨rfl, rfl, fun _ => rfl⟩

/-- Whatever a change does to the rows of a table, the rest of the store
is as it was, and all of it if the change fails. -/
theorem Store.mutate_sameBut {α : Type} (name : String)
    (change : Table → Action (Array Row) α) (s : Store) :
    (mutate name change).Guarantees s fun _ after => s.SameBut name after :=
  mutate_guarantees fun _ _ _ rows _ => s.setRows_sameBut name rows.toList

-- ========================================================== statements

theorem Delete.execute_sameBut (d : Delete) (s : Store) :
    d.execute.Guarantees s fun _ after => s.SameBut d.table after := by
  unfold Delete.execute
  refine guarantees_get_bind (guarantees_lift_bind fun stored _ => ?_)
  refine guarantees_lift_bind fun mask _ => ?_
  exact guarantees_bind_pure (s.mutate_sameBut d.table _)

theorem Update.execute_sameBut (u : Update) (s : Store) :
    u.execute.Guarantees s fun _ after => s.SameBut u.table after := by
  unfold Update.execute
  refine guarantees_get_bind (guarantees_lift_bind fun stored _ => ?_)
  refine guarantees_lift_bind fun assignments _ => guarantees_lift_bind fun mask _ => ?_
  exact guarantees_bind_pure (s.mutate_sameBut u.table _)

theorem Insert.execute_sameBut (i : Insert) (version : DialectVersion) (s : Store) :
    (i.execute version).Guarantees s fun _ after => s.SameBut i.table after := by
  unfold Insert.execute
  refine guarantees_get_bind (guarantees_lift_bind fun stored _ => ?_)
  refine guarantees_lift_bind fun places _ => guarantees_lift_bind fun values _ => ?_
  refine guarantees_lift_bind fun rows _ => guarantees_lift_bind fun resolution _ => ?_
  exact guarantees_bind_pure (s.mutate_sameBut i.table _)

theorem Merge.execute_sameBut (m : Merge) (version : DialectVersion) (s : Store) :
    (m.execute version).Guarantees s fun _ after => s.SameBut m.target.name after := by
  unfold Merge.execute
  refine guarantees_get_bind (guarantees_lift_bind fun source _ => ?_)
  refine guarantees_lift_bind fun stored _ => guarantees_lift_bind fun scope _ => ?_
  refine guarantees_lift_bind fun predicate _ => guarantees_lift_bind fun clauses _ => ?_
  exact guarantees_bind_pure (s.mutate_sameBut m.target.name _)

namespace Statement

/-- A statement fails and changes nothing, or changes what its kind
allows for. -/
theorem execute_changes (version : DialectVersion) (statement : Statement) (s : Store) :
    (statement.execute version).Guarantees s fun _ after => statement.Changes s after := by
  cases statement with
  | createTable name columns =>
      refine guarantees_lift_bind fun table htable => guarantees_bind_pure ?_
      refine (Store.createTable_guarantees table s).mono fun _ after hafter => ?_
      obtain ⟨-, hfree, hentries⟩ := hafter
      have hname : table.name = name := by
        obtain ⟨columns, -, rfl⟩ := Result.map_eq_ok.mp htable
        rfl
      obtain ⟨first, last, hsplit, hinsert⟩ :=
        Store.insertEntry_split ⟨Store.keyOf table.name, ⟨table, []⟩⟩ s.entries
      rw [hinsert] at hentries
      subst hname
      exact ⟨hfree, first, last, table, hsplit, rfl, hentries⟩
  | dropTable name ifExists =>
      exact guarantees_bind_pure (Store.dropTable_guarantees name ifExists s)
  | select q =>
      refine guarantees_get_bind (guarantees_lift_bind fun answer _ => ?_)
      exact guarantees_pure rfl
  | insert i => exact guarantees_map (i.execute_sameBut version s)
  | update u => exact guarantees_map (u.execute_sameBut s)
  | delete d => exact guarantees_map (d.execute_sameBut s)
  | merge m => exact guarantees_map (m.execute_sameBut version s)

/-- Binding keeps the kind of a statement and the table that it names, so
what the bound statement may change is what the statement may. -/
theorem changes_bind {parameters : Parameters} {statement bound : Statement}
    (h : statement.bind parameters = .ok bound) : bound.Changes = statement.Changes := by
  -- of each statement binding replaces only parts that are not its table
  cases statement with
  | createTable name columns =>
      obtain ⟨_, -, rfl⟩ := Result.map_eq_ok.mp h
      rfl
  | dropTable name ifExists =>
      cases h
      rfl
  | select q =>
      obtain ⟨_, -, rfl⟩ := Result.map_eq_ok.mp h
      rfl
  | insert i =>
      obtain ⟨_, -, h⟩ := Result.bind_eq_ok.mp h
      obtain ⟨_, -, h⟩ := Result.bind_eq_ok.mp h
      obtain ⟨_, -, rfl⟩ := Result.map_eq_ok.mp h
      rfl
  | update u =>
      obtain ⟨_, -, h⟩ := Result.bind_eq_ok.mp h
      obtain ⟨_, -, rfl⟩ := Result.map_eq_ok.mp h
      rfl
  | delete d =>
      obtain ⟨_, -, rfl⟩ := Result.map_eq_ok.mp h
      rfl
  | merge m =>
      obtain ⟨_, -, h⟩ := Result.bind_eq_ok.mp h
      obtain ⟨_, -, h⟩ := Result.bind_eq_ok.mp h
      obtain ⟨_, -, rfl⟩ := Result.map_eq_ok.mp h
      rfl

/-- A text that is run on a store either fails, in reading, binding or
executing it, and leaves the store as it was; or it is a statement, and
changes what its kind allows for. -/
theorem run_changes (version : DialectVersion) (parameters : Parameters) (text : String)
    (store : Store) :
    match (run version parameters text).perform store with
    | (.error _, after) => after = store
    | (.ok _, after) =>
      ∃ statement, parse version text = .ok statement ∧ statement.Changes store after := by
  have h : (run version parameters text).Guarantees store fun _ after =>
      ∃ statement, parse version text = .ok statement ∧ statement.Changes store after := by
    refine guarantees_lift_bind fun statement hparse => ?_
    refine guarantees_lift_bind fun bound hbind => ?_
    refine (execute_changes version bound store).mono fun _ after hafter => ?_
    exact ⟨statement, hparse, changes_bind hbind ▸ hafter⟩
  unfold Guarantees at h
  cases hrun : (run version parameters text).perform store with
  | mk result after =>
      rw [hrun] at h
      cases result <;> exact h

end Statement

end DialectDb
