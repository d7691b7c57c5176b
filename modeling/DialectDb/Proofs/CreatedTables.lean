/-
The tables that CREATE TABLE makes. A table can be created iff it has a
name and admissible columns with different names (`Table.validate_eq_ok`),
and whatever columns a definition makes have settled their default: there
is one if the column takes NULL, and it has the type of the column.
-/
import DialectDb.Execution
import DialectDb.Proofs.Validity

namespace DialectDb

-- ============================================================= validity

/-- A column that a table can have. -/
structure Column.Admissible (c : Column) : Prop where
  name : c.name ≠ ""
  /-- The primary key takes no NULL. -/
  key : c.primaryKey = true → c.nullable = false
  /-- A default of NULL needs a column that takes it. -/
  null : c.default = some .null → c.nullable = true
  storable : ∀ value ∈ c.default, ∃ stored, value.coerce c.type = .ok stored

namespace Table

variable {t : Table}

theorem validateColumn_eq_ok {before : List Column} {c : Column} :
    t.validateColumn before c = .ok ⟨⟩ ↔
      c.Admissible ∧ ∀ b ∈ before, Text.sameName b.name c.name = false := by
  have hnew : ¬before.any (Text.sameName ·.name c.name) = true ↔
      ∀ b ∈ before, Text.sameName b.name c.name = false := by
    simp
  have hkey : ¬(c.primaryKey && c.nullable) = true ↔
      (c.primaryKey = true → c.nullable = false) := by
    simp
  unfold validateColumn
  rw [Result.guard_eq_ok, Result.guard_eq_ok, Result.guard_eq_ok, hnew, hkey]
  cases hdefault : c.default with
  | none =>
      constructor
      · rintro ⟨hname, hbefore, hprimary, -⟩
        exact ⟨⟨hname, hprimary, by simp [hdefault], by simp [hdefault]⟩, hbefore⟩
      · rintro ⟨h, hbefore⟩
        exact ⟨h.name, hbefore, h.key, rfl⟩
  | some value =>
      have hnull : ¬(decide (value = .null) && !c.nullable) = true ↔
          (value = .null → c.nullable = true) := by
        simp
      simp only [Result.guard_eq_ok, Result.bind_eq_ok, hnull]
      constructor
      · rintro ⟨hname, hbefore, hprimary, hvalue, stored, hstored, -⟩
        exact ⟨⟨hname, hprimary, by simpa [hdefault] using hvalue,
          by simpa [hdefault] using ⟨stored, hstored⟩⟩, hbefore⟩
      · rintro ⟨h, hbefore⟩
        obtain ⟨stored, hstored⟩ := h.storable value hdefault
        exact ⟨h.name, hbefore, h.key, fun hnull => h.null (hnull ▸ hdefault), stored, hstored, rfl⟩

/-- The columns of a list are admissible and have different names, which
are not those before them either. -/
theorem validateColumns_eq_ok {before columns : List Column} :
    t.validateColumns before columns = .ok ⟨⟩ ↔
      (∀ c ∈ columns, c.Admissible ∧ ∀ b ∈ before, Text.sameName b.name c.name = false) ∧
        columns.Pairwise fun b c => Text.sameName b.name c.name = false := by
  induction columns generalizing before with
  | nil => exact ⟨fun _ => ⟨nofun, .nil⟩, fun _ => rfl⟩
  | cons c rest ih =>
      have hstep : t.validateColumns before (c :: rest) = .ok ⟨⟩ ↔
          t.validateColumn before c = .ok ⟨⟩ ∧ t.validateColumns (before ++ [c]) rest = .ok ⟨⟩ :=
        Result.bind_eq_ok.trans Unique.exists_iff
      rw [hstep, validateColumn_eq_ok, ih, List.pairwise_cons, List.forall_mem_cons]
      simp only [List.forall_mem_append, List.forall_mem_singleton]
      constructor
      · rintro ⟨hc, hrest, hpairwise⟩
        exact ⟨⟨hc, fun d hd => ⟨(hrest d hd).1, (hrest d hd).2.1⟩⟩,
          fun d hd => (hrest d hd).2.2, hpairwise⟩
      · rintro ⟨⟨hc, hrest⟩, hnew, hpairwise⟩
        exact ⟨hc, fun d hd => ⟨(hrest d hd).1, (hrest d hd).2, hnew d hd⟩, hpairwise⟩

/-- Whether a table can be created. -/
theorem validate_eq_ok :
    t.validate = .ok ⟨⟩ ↔ t.name ≠ "" ∧ t.columns ≠ [] ∧ (∀ c ∈ t.columns, c.Admissible) ∧
      t.columns.Pairwise fun b c => Text.sameName b.name c.name = false := by
  unfold validate
  rw [Result.guard_eq_ok, Result.guard_eq_ok, validateColumns_eq_ok]
  simp only [List.not_mem_nil, false_implies, implies_true, and_true, ne_eq]

end Table

-- ============================================================ definitions

/-- A column whose default is settled. -/
structure Column.Settled (c : Column) : Prop where
  /-- Without a default a column takes no NULL. -/
  none : c.default = none → c.nullable = false
  typed : ∀ value ∈ c.default, value = .null ∨ value.type? = some c.type

theorem ColumnDefinition.settled_of_column {d : ColumnDefinition} {c : Column}
    (h : d.column = .ok c) : c.Settled := by
  unfold ColumnDefinition.column at h
  cases hgiven : d.default with
  | some e =>
      rw [hgiven] at h
      obtain ⟨value, -, h⟩ := Result.bind_eq_ok.mp h
      obtain ⟨stored, hstored, h⟩ := Result.bind_eq_ok.mp h
      cases h
      refine ⟨nofun, ?_⟩
      rintro _ ⟨⟩
      exact Value.type_of_coerce hstored
  | none =>
      rw [hgiven] at h
      cases h
      cases hnullable : d.nullable.getD !d.primaryKey with
      | true => exact ⟨nofun, by rintro _ ⟨⟩; exact .inl rfl⟩
      | false => exact ⟨fun _ => rfl, nofun⟩

-- ============================================================== creation

open DialectDb.Action

/-- In an empty store every table can be created that can be at all. -/
theorem Store.perform_createTable {table : Table} (h : table.validate = .ok ⟨⟩) :
    (createTable table).perform {} =
      (.ok ⟨⟩, ⟨[⟨keyOf table.name, ⟨table, []⟩⟩]⟩) := by
  unfold createTable
  rw [perform_lift_bind, h]
  rfl

/-- A table that has been created under a name is the one that is found
under it. -/
theorem Store.find?_created {new : Entry} {s after : Store}
    (hnew : ∀ e ∈ s.entries, e.key ≠ new.key)
    (hafter : after.entries = insertEntry new s.entries) {name : String} {stored : StoredTable}
    (hkey : new.key = keyOf name) (hfound : after.find? name = some stored) :
    stored = new.stored := by
  have hmem := find?_mem hfound
  rw [hafter, mem_insertEntry] at hmem
  rcases hmem with hsame | hold
  · rw [← hsame]
  · exact absurd hkey.symm (hnew _ hold)

namespace Statement

variable {version : DialectVersion} {ps : Parameters} {sql name : String}
  {definitions : List ColumnDefinition} {s after : Store} {outcome : Outcome}
  {stored : StoredTable}

/-- Whether a text is read as CREATE TABLE for a table of this name. -/
def creates (version : DialectVersion) (text name : String) : Bool :=
  match parse version text with
  | .ok (.createTable given _) => given = name
  | _ => false

theorem creates_iff : creates version sql name = true ↔
    ∃ definitions, parse version sql = .ok (.createTable name definitions) := by
  unfold creates
  split
  · next given definitions hparse =>
      rw [hparse]
      simp
  · next hother =>
      exact ⟨nofun, fun h => absurd h.choose_spec (hother name h.choose)⟩

/-- What is known of a table that CREATE TABLE has created. -/
theorem created_table (hparse : parse version sql = .ok (.createTable name definitions))
    (hrun : (run version ps sql).perform s = (.ok outcome, after))
    (hfound : after.find? name = some stored) :
    stored.table.validate = .ok ⟨⟩ ∧ ∀ c ∈ stored.table.columns, c.Settled := by
  obtain ⟨_, hstatement, hrun⟩ := perform_lift_bind_eq_ok.mp hrun
  cases hparse.symm.trans hstatement
  obtain ⟨bound, hbind, hrun⟩ := perform_lift_bind_eq_ok.mp hrun
  obtain ⟨columns, -, rfl⟩ := Result.map_eq_ok.mp hbind
  obtain ⟨table, htable, hrun⟩ := perform_lift_bind_eq_ok.mp hrun
  obtain ⟨made, hmade, rfl⟩ := Result.map_eq_ok.mp htable
  obtain ⟨_, mid, hcreate, hrun⟩ := perform_bind_eq_ok.mp hrun
  cases hrun
  have hguarantees := Store.createTable_guarantees ⟨name, made⟩ s
  unfold Guarantees at hguarantees
  rw [hcreate] at hguarantees
  obtain ⟨hvalid, hnew, hafter⟩ := hguarantees
  rw [Store.find?_created hnew hafter rfl hfound]
  refine ⟨hvalid, fun c hc => ?_⟩
  obtain ⟨d, -, hd⟩ := (Result.mem_mapM hmade).mp hc
  exact ColumnDefinition.settled_of_column hd

end Statement

end DialectDb
