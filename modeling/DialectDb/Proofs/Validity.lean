/-
Valid stores: what holds of the tables and rows of a database at every
time. This file says what that is, and that the changes a store can take
keep it; the statements follow in `Writing.lean`, and whole runs in
`Runs.lean`.

A statement that writes rows does so on a copy, and the copy need not be
valid before the statement is done. So what a change of rows has to keep
is asked of it at its end only (`mutate_valid`): all rows are rows that
the table holds, and no two collide.
-/
import Mathlib.Data.List.Nodup
import Mathlib.Data.String.Basic
import DialectDb.Proofs.Keys
import DialectDb.Proofs.Storage
import DialectDb.Proofs.Store

namespace DialectDb

open DialectDb.Action

-- ============================================================== tables

/-- A table that can exist, with rows that it can hold, no two of which
collide on a unique key. -/
structure StoredTable.Valid (s : StoredTable) : Prop where
  schema : s.table.validate = .ok ()
  /-- Every row has one value for each column. -/
  width : ∀ row ∈ s.rows, row.length = s.table.columns.length
  /-- Every row is as the table stores it. -/
  normal : ∀ row ∈ s.rows, s.table.normalizeRow row = .ok row
  /-- Every value is one that its column can hold. -/
  holds : ∀ row ∈ s.rows, s.table.Holds row
  unique : s.table.Unique s.rows

/-- Rows that a table can hold and that do not collide make it a valid
one. -/
theorem StoredTable.Valid.intro {t : Table} {rows : List Row} (schema : t.validate = .ok ())
    (holds : ∀ row ∈ rows, t.Holds row) (unique : t.Unique rows) :
    (⟨t, rows⟩ : StoredTable).Valid where
  schema := schema
  width row hrow := (holds row hrow).length_eq.symm
  normal row hrow := Table.normalizeRow_eq_self.mpr (holds row hrow)
  holds := holds
  unique := unique

/-- Some of the rows of a valid table make a valid table. -/
theorem StoredTable.Valid.sublist {s : StoredTable} {rows : List Row} (h : s.Valid)
    (hrows : rows.Sublist s.rows) : (⟨s.table, rows⟩ : StoredTable).Valid :=
  .intro h.schema (fun row hrow => h.holds row (hrows.subset hrow)) (h.unique.sublist hrows)

-- =============================================================== stores

/-- A store of valid tables, each under its name in lower case, in the
order of these keys. -/
structure Store.Valid (s : Store) : Prop where
  ordered : s.entries.Pairwise fun a b => a.key < b.key
  keyed : ∀ e ∈ s.entries, e.key = keyOf e.stored.table.name
  tables : ∀ e ∈ s.entries, e.stored.Valid

namespace Store

theorem valid_empty : ({} : Store).Valid where
  ordered := .nil
  keyed _ h := absurd h List.not_mem_nil
  tables _ h := absurd h List.not_mem_nil

/-- In a valid store a key has one entry. -/
theorem Valid.entry_unique {s : Store} (h : s.Valid) {a b : Entry} (ha : a ∈ s.entries)
    (hb : b ∈ s.entries) (hkey : a.key = b.key) : a = b := by
  have hnodup : (s.entries.map (·.key)).Nodup := List.pairwise_map.mpr (h.ordered.imp ne_of_lt)
  exact List.inj_on_of_nodup_map hnodup ha hb hkey

-- ======================================================== CREATE TABLE

/-- A new entry is a member of the list that it is put into, as are the
others. -/
theorem mem_insertEntry {new e : Entry} {entries : List Entry} :
    e ∈ insertEntry new entries ↔ e = new ∨ e ∈ entries := by
  obtain ⟨before, rest, hsplit, hinsert⟩ := insertEntry_split new entries
  rw [hinsert, hsplit]
  simp only [List.mem_append, List.mem_cons]
  exact or_left_comm

/-- An entry with a new key is put where the order of the keys has
it. -/
theorem insertEntry_ordered {new : Entry} {entries : List Entry}
    (h : entries.Pairwise fun a b => a.key < b.key) (hfree : ∀ e ∈ entries, e.key ≠ new.key) :
    (insertEntry new entries).Pairwise fun a b => a.key < b.key := by
  induction entries with
  | nil => exact List.pairwise_singleton _ _
  | cons e rest ih =>
      obtain ⟨hhead, hrest⟩ := List.pairwise_cons.mp h
      obtain ⟨hne, hfree⟩ := List.forall_mem_cons.mp hfree
      unfold insertEntry
      split
      · next hlt =>
          refine List.pairwise_cons.mpr ⟨List.forall_mem_cons.mpr ⟨hlt, ?_⟩, h⟩
          exact fun b hb => lt_trans hlt (hhead b hb)
      · next hge =>
          refine List.pairwise_cons.mpr ⟨fun b hb => ?_, ih hrest hfree⟩
          rcases mem_insertEntry.mp hb with rfl | hb
          · exact lt_of_le_of_ne (not_lt.mp hge) hne
          · exact hhead b hb

/-- The creation of a table keeps a store valid. -/
theorem createTable_valid (table : Table) {s : Store} (h : s.Valid) :
    (createTable table).Guarantees s fun _ after => after.Valid := by
  refine (createTable_guarantees table s).mono fun _ after hafter => ?_
  obtain ⟨hvalid, hfree, hentries⟩ := hafter
  constructor
  · rw [hentries]
    exact insertEntry_ordered h.ordered hfree
  · intro e he
    rw [hentries] at he
    rcases mem_insertEntry.mp he with rfl | he
    · rfl
    · exact h.keyed e he
  · intro e he
    rw [hentries] at he
    rcases mem_insertEntry.mp he with rfl | he
    · exact .intro hvalid (fun _ hrow => absurd hrow List.not_mem_nil) Table.unique_nil
    · exact h.tables e he

-- ========================================================== DROP TABLE

theorem dropTable_valid (name : String) (ifExists : Bool) {s : Store} (h : s.Valid) :
    (dropTable name ifExists).Guarantees s fun _ after => after.Valid := by
  refine (dropTable_guarantees name ifExists s).mono fun _ after hafter => ?_
  have hsub : after.entries.Sublist s.entries := hafter ▸ List.filter_sublist
  exact ⟨h.ordered.sublist hsub, fun e he => h.keyed e (hsub.subset he),
    fun e he => h.tables e (hsub.subset he)⟩

-- ===================================================== changes of rows

/-- New rows that are valid rows of the table under a key keep a store
valid. -/
theorem Valid.setRows {s : Store} (h : s.Valid) {key : String} {rows : List Row}
    (hrows : ∀ e ∈ s.entries, e.key = key → (⟨e.stored.table, rows⟩ : StoredTable).Valid) :
    (s.setRows key rows).Valid := by
  unfold Store.setRows
  constructor
  · refine List.pairwise_map.mpr (h.ordered.imp fun {a b} hab => ?_)
    split <;> split <;> exact hab
  · intro e he
    obtain ⟨old, hold, rfl⟩ := List.mem_map.mp he
    split <;> exact h.keyed old hold
  · intro e he
    obtain ⟨old, hold, rfl⟩ := List.mem_map.mp he
    split
    · next hkey => exact hrows old hold hkey
    · exact h.tables old hold

/-- A change of a valid table's rows keeps a store valid if it ends with
rows that make the table valid. -/
theorem mutate_valid {α : Type} {name : String} {change : Table → Action (Array Row) α}
    {s : Store} (h : s.Valid)
    (hchange : ∀ stored, s.get name = .ok stored → stored.Valid →
      (change stored.table).Ensures stored.rows.toArray fun _ rows =>
        (⟨stored.table, rows.toList⟩ : StoredTable).Valid) :
    (mutate name change).Guarantees s fun _ after => after.Valid := by
  refine mutate_guarantees fun stored hstored => ?_
  have hmem := get_mem hstored
  refine (hchange stored hstored (h.tables _ hmem)).mono fun _ rows hrows => ?_
  refine h.setRows fun e he hkey => ?_
  rw [h.entry_unique he hmem hkey]
  exact hrows

end Store

end DialectDb
