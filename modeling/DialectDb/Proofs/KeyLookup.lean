/-
Looking a row up by a key. Keys are unique by identity, and WHERE
compares. Within one type the two differ in the zeros only, which are
equal and not the same. So a column that is a key by itself has one row
at most for each value, or two for a zero, one with either sign
(`key_lookup`).
-/
import DialectDb.Formula
import DialectDb.Proofs.Runs
import DialectDb.Proofs.ShownNumbers

namespace DialectDb

-- ============================================================== values

theorem Double.eq_or_zeros_of_compare? {a b : Double} (h : a.compare? b = some .eq) :
    a = b ∨ (∃ sign, a = zero sign) ∧ ∃ sign, b = zero sign := by
  have hzero (d : Double) (hd : d.magnitude = 0) : ∃ sign, d = zero sign :=
    ⟨d.negative, by rw [zero, ← hd, d.ofMagnitude_self]⟩
  obtain ⟨-, hrank⟩ := Option.ite_none_left_eq_some.mp h
  rcases eq_or_zeros_of_rank (compare_eq_iff_eq.mp (Option.some_inj.mp hrank)) with hsame | ⟨ha, hb⟩
  · exact .inl hsame
  · exact .inr ⟨hzero a ha, hzero b hb⟩

/-- Of values of one type, those that compare as equal are the same, the
zeros apart. -/
theorem Value.eq_or_zeros_of_compare {a b : Value} (htype : a.type? = b.type?)
    (h : compare a b = .ok (some .eq)) :
    a = b ∨ (∃ sign, a = .float (.zero sign)) ∧ ∃ sign, b = .float (.zero sign) := by
  cases a with
  | null => cases b <;> cases h
  | boolean a =>
      cases b <;> cases htype
      next b =>
        simp only [compare, Except.ok.injEq, Option.some_inj] at h
        exact .inl (congrArg _ (Std.LawfulEqCmp.eq_of_compare h))
  | integer a =>
      cases b <;> cases htype
      next b =>
        simp only [compare, Except.ok.injEq, Option.some_inj] at h
        exact .inl (congrArg _ (Int64.toInt_inj.mp (compare_eq_iff_eq.mp h)))
  | float a =>
      cases b <;> cases htype
      next b =>
        simp only [compare, Except.ok.injEq] at h
        rcases Double.eq_or_zeros_of_compare? h with rfl | ⟨⟨sign, rfl⟩, sign', rfl⟩
        · exact .inl rfl
        · exact .inr ⟨⟨sign, rfl⟩, sign', rfl⟩
  | string a =>
      cases b <;> cases htype
      next b =>
        simp only [compare, Except.ok.injEq, Option.some_inj] at h
        exact .inl (congrArg _ (compare_eq_iff_eq.mp h))

-- ================================================================ keys

/-- The values of a column alone are different in all rows: it is the
primary key, or a unique column outside of it. -/
def Table.IsKey (t : Table) (k : Nat) : Prop :=
  t.columnsWhere (·.primaryKey) = [k] ∨
    ∃ c, t.columns[k]? = some c ∧ c.unique = true ∧ c.primaryKey = false

theorem Table.mem_columnsWhere {t : Table} {p : Column → Bool} {k : Nat} :
    k ∈ t.columnsWhere p ↔ ∃ c, t.columns[k]? = some c ∧ p c = true := by
  simp [columnsWhere, List.mk_mem_zipIdx_iff_getElem?]

theorem Table.IsKey.mem_uniqueKeys {t : Table} {k : Nat} (h : t.IsKey k) :
    [k] ∈ t.uniqueKeys := by
  unfold uniqueKeys
  dsimp only
  rcases h with hprimary | ⟨c, hc, hunique, houtside⟩
  · rw [hprimary]
    exact List.mem_cons_self
  · have hmem : [k] ∈ (t.columnsWhere fun c => c.unique && !c.primaryKey).map fun i => [i] := by
      refine List.mem_map.mpr ⟨k, mem_columnsWhere.mpr ⟨c, hc, ?_⟩, rfl⟩
      rw [hunique, houtside]
      rfl
    split
    · exact hmem
    · exact List.mem_cons_of_mem _ hmem

-- ============================================================== lookup

namespace StoredTable

variable {s : StoredTable} {k : Nat} {v : Value}

/-- The rows that WHERE finds with a column equal to a value. -/
def lookup (s : StoredTable) (k : Nat) (v : Value) : List Row :=
  s.rows.filter fun row =>
    Formula.holds (some (.binary .equal (.column k) (.const v))) row = .ok true

theorem mem_lookup {row : Row} : row ∈ s.lookup k v ↔
    row ∈ s.rows ∧ ∃ value, row[k]? = some value ∧ value.compare v = .ok (some .eq) := by
  unfold lookup
  rw [List.mem_filter, decide_eq_true_iff]
  refine and_congr_right fun _ => ?_
  simp only [Formula.holds, Formula.eval]
  cases row[k]? with
  | none => simp
  | some value =>
      simp only [Option.some_inj, exists_eq_left', BinaryOp.apply, Value.test, bind, Except.bind]
      cases value.compare v with
      | error e => simp
      | ok order =>
          cases order with
          | none => simp
          | some order => simp

/-- The values at a key that WHERE finds are different. -/
theorem Valid.lookup_nodup (h : s.Valid) (hkey : s.table.IsKey k) :
    ((s.lookup k v).map (·.getD k .null)).Nodup := by
  have hunique := (h.unique [k] hkey.mem_uniqueKeys).sublist
    (List.filter_sublist : (s.lookup k v).Sublist s.rows)
  refine List.pairwise_map.mpr (hunique.imp_of_mem fun {a b} ha _ hfree hsame => ?_)
  obtain ⟨-, value, hvalue, hequal⟩ := mem_lookup.mp ha
  have hnull : a.getD k .null ≠ .null := by
    rw [List.getD_eq_getElem?_getD, hvalue]
    rintro rfl
    cases v <;> cases hequal
  have hvalues (row : Row) : Table.keyValues [k] row = [row.getD k .null] := rfl
  refine hfree ⟨by rw [hvalues, hvalues, hsame], ?_⟩
  rw [hvalues, List.mem_singleton]
  exact hnull.symm

/-- A value found by one of its column's type is that value, or both are
zeros. -/
theorem Valid.found (h : s.Valid) {c : Column} (hc : s.table.columns[k]? = some c)
    (htype : v.type? = some c.type) {row : Row} (hrow : row ∈ s.lookup k v) :
    row.getD k .null = v ∨
      (∃ sign, row.getD k .null = .float (.zero sign)) ∧ ∃ sign, v = .float (.zero sign) := by
  obtain ⟨hmem, value, hvalue, hequal⟩ := mem_lookup.mp hrow
  have hholds : c.Holds value := by
    obtain ⟨hcolumn, rfl⟩ := List.getElem?_eq_some_iff.mp hc
    obtain ⟨hplace, rfl⟩ := List.getElem?_eq_some_iff.mp hvalue
    exact (h.holds row hmem).get hcolumn hplace
  have hget : row.getD k .null = value := by rw [List.getD_eq_getElem?_getD, hvalue]; rfl
  rw [hget]
  refine Value.eq_or_zeros_of_compare ?_ hequal
  rcases hholds.type with rfl | hsame
  · cases v <;> cases hequal
  · rw [hsame, htype]

/-- Different values that are each one of two are one at most, or both. -/
theorem nodup_pair {α : Type} {f : Bool → α} {values : List α} (h : values.Nodup)
    (hmem : ∀ value ∈ values, ∃ b, value = f b) :
    values.length ≤ 1 ∨ ∃ b, values = [f b, f !b] := by
  have hother {p q : Bool} (hne : f p ≠ f q) : q = !p :=
    Bool.eq_not.mpr fun hsame => hne (congrArg f hsame.symm)
  match values with
  | [] => exact .inl (Nat.zero_le _)
  | [_] => exact .inl (Nat.le_refl _)
  | [a, b] =>
      obtain ⟨p, rfl⟩ := hmem a (by simp)
      obtain ⟨q, rfl⟩ := hmem b (by simp)
      have hne : f p ≠ f q := by simpa using h
      exact .inr ⟨p, by rw [hother hne]⟩
  | a :: b :: c :: _ =>
      -- of three, two are the same
      obtain ⟨p, rfl⟩ := hmem a (by simp)
      obtain ⟨q, rfl⟩ := hmem b (by simp)
      obtain ⟨r, rfl⟩ := hmem c (by simp)
      simp only [List.nodup_cons, List.mem_cons, not_or] at h
      obtain ⟨⟨hpq, hpr, -⟩, ⟨hqr, -⟩, -⟩ := h
      rw [hother hpq, hother hpr] at hqr
      exact absurd rfl hqr

/-- A lookup by a key finds one row at most, or two zeros with different
signs. -/
theorem Valid.lookup_key (h : s.Valid) (hkey : s.table.IsKey k) {c : Column}
    (hc : s.table.columns[k]? = some c) (htype : v.type? = some c.type) :
    (s.lookup k v).length ≤ 1 ∨
      ∃ sign first, v = .float (.zero sign) ∧
        (s.lookup k v).map (·.getD k .null) = [.float (.zero first), .float (.zero !first)] := by
  have hnodup := h.lookup_nodup (v := v) hkey
  have hfound {value : Value} (hmem : value ∈ (s.lookup k v).map (·.getD k .null)) :
      value = v ∨ (∃ sign, value = .float (.zero sign)) ∧ ∃ sign, v = .float (.zero sign) := by
    obtain ⟨row, hrow, rfl⟩ := List.mem_map.mp hmem
    exact h.found hc htype hrow
  rw [← List.length_map (·.getD k .null)]
  generalize (s.lookup k v).map (·.getD k .null) = values at hnodup hfound ⊢
  by_cases hzero : ∃ sign, v = .float (.zero sign)
  · obtain ⟨sign, rfl⟩ := hzero
    have hzeros : ∀ value ∈ values, ∃ b, value = .float (.zero b) := by
      intro value hmem
      rcases hfound hmem with rfl | ⟨hvalue, -⟩
      · exact ⟨sign, rfl⟩
      · exact hvalue
    exact (nodup_pair hnodup hzeros).imp_right fun ⟨first, hfirst⟩ => ⟨sign, first, rfl, hfirst⟩
  · have hsame : ∀ value ∈ values, value = v := fun value hmem =>
      (hfound hmem).resolve_right fun hzeros => hzero hzeros.2
    refine .inl ?_
    match values with
    | [] => exact Nat.zero_le _
    | [_] => exact Nat.le_refl _
    | a :: b :: _ =>
        rw [hsame a (by simp), hsame b (by simp)] at hnodup
        simp at hnodup

end StoredTable

/-- In every store that a run can reach, a lookup by a column that is a key
by itself, with a value of the column's type, finds one row at most, or
one for either zero. -/
theorem Client.key_lookup (version : DialectVersion) (names : List String) (calls : List Call)
    {e : Entry}
    (he : e ∈ ((start version (Registry.ofNames names)).run calls).2.server.store.entries)
    {k : Nat} {c : Column} (hkey : e.stored.table.IsKey k)
    (hc : e.stored.table.columns[k]? = some c) {v : Value} (htype : v.type? = some c.type) :
    (e.stored.lookup k v).length ≤ 1 ∨
      ∃ sign first, v = .float (.zero sign) ∧
        (e.stored.lookup k v).map (·.getD k .null) =
          [.float (.zero first), .float (.zero !first)] := by
  have hsound : ((start version (Registry.ofNames names)).run calls).2.server.Sound :=
    run_sound calls ⟨Store.valid_empty, Registry.builtIn_ofNames names⟩
  exact (hsound.store.tables e he).lookup_key hkey hc htype

namespace KeyLookup

/-- The tables after some statements have been executed on a new
database. -/
def tables (statements : List String) : List Entry :=
  ((Client.start ⟨.postgreSql, 16⟩ (Registry.ofNames ["postgresql"])).run
    (statements.map fun text => .executeText 0 text [])).2.server.store.entries

/-- A table of two tasks. -/
def tasks : Entry :=
  let id : Column := { name := "id", type := .integer }
  ⟨"tasks", ⟨"tasks", [id.asPrimaryKey]⟩, [[.integer 1], [.integer 2]]⟩

/-- There is one task at most with the number 1. -/
theorem task_one :
    tasks ∈ tables ["CREATE TABLE tasks (id INT PRIMARY KEY)",
        "INSERT INTO tasks VALUES (1), (2)"] ∧
      (tasks.stored.lookup 0 (.integer 1)).length ≤ 1 := by
  have hmem : tasks ∈ tables ["CREATE TABLE tasks (id INT PRIMARY KEY)",
      "INSERT INTO tasks VALUES (1), (2)"] := by
    decide +kernel
  refine ⟨hmem, ?_⟩
  rcases Client.key_lookup _ _ _ hmem (k := 0) (.inl (by decide)) rfl (v := .integer 1) rfl with
    hone | ⟨_, _, hzero, -⟩
  · exact hone
  · cases hzero

/-- A table holds both zeros under a FLOAT primary key, and a lookup of
one finds them both; and a lookup by a unique column finds two rows where
that is in a primary key of two columns. -/
theorem zeros_both_found :
    (tables ["CREATE TABLE t (k FLOAT PRIMARY KEY)", "INSERT INTO t VALUES (0.0)",
        "INSERT INTO t VALUES (-0.0)"]).map (fun e =>
      (e.stored.table.columnsWhere (·.primaryKey),
        (e.stored.lookup 0 (.float (.zero false))).length)) = [([0], 2)] ∧
      (tables ["CREATE TABLE t (a INT UNIQUE, b INT, PRIMARY KEY (a, b))",
          "INSERT INTO t VALUES (1, 1), (1, 2)"]).map (fun e =>
        (e.stored.table.columnsWhere (·.unique), (e.stored.lookup 0 (.integer 1)).length)) =
          [([0], 2)] := by
  constructor <;> decide +kernel

end KeyLookup

end DialectDb
