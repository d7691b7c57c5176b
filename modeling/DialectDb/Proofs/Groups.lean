/-
What the groups of some rows are. Rows are taken in one by one and each
goes to the group of its key, the values of the grouping formulas. So a
group has what aggregating its own rows gives, in their order, and there
is a group of a key iff a row has that key.
-/
import DialectDb.Rows.Grouped
import DialectDb.Proofs.Rows
import DialectDb.Proofs.TotalOrder

namespace DialectDb

namespace Rows

/-- To go over rows that can be read is to go over the list of them. -/
theorem fold_eq_ok {α : Type} {step : α → Row → Result α} {rows : Rows} {a b : α} :
    rows.fold step a = .ok b ↔ ∃ read, rows.collect = .ok read ∧ read.foldlM step a = .ok b := by
  simp only [collect_eq_ok, fold_eq]
  generalize rows.toList = results
  induction results generalizing a with
  | nil =>
      constructor
      · intro h
        exact ⟨[], rfl, h⟩
      · rintro ⟨read, hread, h⟩
        rw [List.map_eq_nil_iff.mp hread.symm] at h
        exact h
  | cons result rest ih =>
      simp only [List.foldlM_cons, Result.bind_eq_ok, ih]
      constructor
      · rintro ⟨c, ⟨row, rfl, hrow⟩, read, rfl, hrest⟩
        refine ⟨row :: read, rfl, ?_⟩
        rw [List.foldlM_cons, hrow]
        exact hrest
      · rintro ⟨read, hread, h⟩
        obtain ⟨row, read, rfl, rfl, rfl⟩ := List.map_eq_cons_iff.mp hread.symm
        rw [List.foldlM_cons, Result.bind_eq_ok] at h
        obtain ⟨c, hrow, hrest⟩ := h
        exact ⟨c, ⟨row, rfl, hrow⟩, read, rfl, hrest⟩

end Rows

namespace Grouping

variable {g : Grouping} {groups after : Groups} {read : List Row} {row key : Row}

-- ======================================================== single groups

/-- Whether a row belongs to the group of a key. -/
def inGroup (g : Grouping) (key row : Row) : Bool :=
  match Formula.evalList row g.keys with
  | .ok values => values = key
  | .error _ => false

/-- The rows of a group. -/
def members (g : Grouping) (read : List Row) (key : Row) : List Row :=
  read.filter (g.inGroup key)

/-- What has been aggregated once rows were taken in. -/
def aggregated (g : Grouping) (read : List Row) : Result (List Accumulator) :=
  read.foldlM (fun accumulators row => addValues row g.calls accumulators) g.initial

/-- The row that comes out of a group. -/
def rowOf (g : Grouping) (read : List Row) (key : Row) : Result Row := do
  groupRow key (← g.aggregated (g.members read key))

theorem inGroup_iff : g.inGroup key row = true ↔ Formula.evalList row g.keys = .ok key := by
  unfold inGroup
  split
  · next values hvalues => rw [hvalues, decide_eq_true_iff, Except.ok.injEq]
  · next e he => rw [he]; exact iff_of_false Bool.false_ne_true nofun

theorem mem_members :
    row ∈ g.members read key ↔ row ∈ read ∧ Formula.evalList row g.keys = .ok key := by
  rw [members, List.mem_filter, inGroup_iff]

theorem members_append (read rest : List Row) (key : Row) :
    g.members (read ++ rest) key = g.members read key ++ g.members rest key :=
  List.filter_append ..

theorem length_addValues {calls : List AggregateCall} {before values : List Accumulator}
    (hlength : before.length = calls.length) (h : addValues row calls before = .ok values) :
    values.length = calls.length := by
  induction calls generalizing before values with
  | nil =>
      cases h
      rfl
  | cons call calls ih =>
      cases before with
      | nil => simp at hlength
      | cons a before =>
          obtain ⟨value, -, h⟩ := Result.bind_eq_ok.mp h
          obtain ⟨a, -, h⟩ := Result.bind_eq_ok.mp h
          obtain ⟨rest, hrest, h⟩ := Result.bind_eq_ok.mp h
          cases h
          rw [List.length_cons, List.length_cons, ih (Nat.succ.inj hlength) hrest]

theorem length_aggregated {accumulators : List Accumulator}
    (h : g.aggregated read = .ok accumulators) : accumulators.length = g.calls.length := by
  refine Result.foldlM_keeps (I := fun values => values.length = g.calls.length)
    (fun row _ before values hlength hvalues => length_addValues hlength hvalues) ?_ h
  exact List.length_map _

/-- The row of a group holds its key and then a value for each aggregate
call. -/
theorem rowOf_eq_ok {out : Row} (h : g.rowOf read key = .ok out) :
    ∃ values, out = key ++ values ∧ values.length = g.calls.length := by
  obtain ⟨accumulators, haccumulators, h⟩ := Result.bind_eq_ok.mp h
  obtain ⟨values, hvalues, h⟩ := Result.bind_eq_ok.mp h
  cases h
  refine ⟨values, rfl, ?_⟩
  rw [← length_aggregated haccumulators, (Result.mapM_eq_ok.mp hvalues).length_eq]

-- ========================================================== all groups

/-- What is known of groups once rows were taken in: every row has a key,
the keys of the rows are those of the groups, and each group has what
aggregating its rows gives. -/
structure Hold (g : Grouping) (read : List Row) (groups : Groups) : Prop where
  keyed : ∀ row ∈ read, ∃ key, Formula.evalList row g.keys = .ok key
  mem : ∀ key, key ∈ groups ↔ ∃ row ∈ read, Formula.evalList row g.keys = .ok key
  aggregated : ∀ key, g.aggregated (g.members read key) = .ok (groups.getD key g.initial)

theorem hold_empty (g : Grouping) : g.Hold [] ∅ where
  keyed := fun _ h => absurd h List.not_mem_nil
  mem := by
    intro key
    exact iff_of_false Std.TreeMap.not_mem_emptyc fun ⟨row, hrow, _⟩ => List.not_mem_nil hrow
  aggregated := by
    intro key
    rw [Std.TreeMap.getD_emptyc]
    rfl

/-- A row changes the group of its key only. -/
theorem Hold.addRow (h : g.Hold read groups) (hrow : g.addRow groups row = .ok after) :
    g.Hold (read ++ [row]) after := by
  obtain ⟨own, hown, hrow⟩ := Result.bind_eq_ok.mp hrow
  obtain ⟨values, hvalues, hrow⟩ := Result.bind_eq_ok.mp hrow
  cases hrow
  refine ⟨fun other hother => ?_, fun key => ?_, fun key => ?_⟩
  · rcases List.mem_append.mp hother with hother | hother
    · exact h.keyed other hother
    · rw [List.mem_singleton.mp hother]
      exact ⟨own, hown⟩
  · have hkey : (∃ other ∈ [row], Formula.evalList other g.keys = .ok key) ↔ own = key := by
      rw [List.exists_mem_cons_iff, hown, Except.ok.injEq]
      simp
    rw [Std.TreeMap.mem_insert, Std.LawfulEqCmp.compare_eq_iff_eq, h.mem, ← hkey, or_comm]
    simp only [List.mem_append, or_and_right, exists_or]
  · rw [members_append, Std.TreeMap.getD_insert]
    unfold Grouping.aggregated
    rw [List.foldlM_append]
    have hbefore := h.aggregated key
    unfold Grouping.aggregated at hbefore
    rw [hbefore, Result.ok_bind]
    by_cases hkey : own = key
    · subst hkey
      have hmembers : g.members [row] own = [row] :=
        List.filter_cons_of_pos (inGroup_iff.mpr hown)
      rw [hmembers, if_pos (Std.ReflCmp.compare_self), List.foldlM_cons, hvalues]
      rfl
    · have hmembers : g.members [row] key = [] := by
        refine List.filter_cons_of_neg fun hin => hkey ?_
        exact Except.ok.inj (hown.symm.trans (inGroup_iff.mp hin))
      rw [hmembers, if_neg (mt Std.LawfulEqCmp.eq_of_compare hkey)]
      rfl

theorem Hold.addRows {rest : List Row} (h : g.Hold read groups)
    (hrest : rest.foldlM g.addRow groups = .ok after) : g.Hold (read ++ rest) after := by
  induction rest generalizing read groups with
  | nil =>
      cases hrest
      rwa [List.append_nil]
  | cons row rest ih =>
      obtain ⟨mid, hmid, hrest⟩ := Result.bind_eq_ok.mp hrest
      rw [List.append_cons]
      exact ih (h.addRow hmid) hrest

/-- Each group comes out with its key and what was aggregated of its
rows. -/
theorem Hold.toList_map (h : g.Hold read groups) :
    groups.toList.map (fun (key, accumulators) => groupRow key accumulators) =
      groups.keys.map (g.rowOf read) := by
  rw [← Std.TreeMap.map_fst_toList_eq_keys, List.map_map]
  refine List.map_congr_left fun (key, accumulators) hgroup => ?_
  have hfound := Std.TreeMap.mem_toList_iff_getElem?_eq_some.mp hgroup
  have hget : groups.getD key g.initial = accumulators := by
    rw [Std.TreeMap.getD_eq_getD_getElem?, hfound]
    rfl
  show _ = g.rowOf read key
  rw [rowOf, h.aggregated key, hget]
  rfl

-- ================================================================ rows

/-- Whether there is a group of a key: one with rows or, without grouping
formulas, in any case the one group of all rows. -/
def HasGroup (g : Grouping) (read : List Row) (key : Row) : Prop :=
  (∃ row ∈ read, Formula.evalList row g.keys = .ok key) ∨ g.keys = [] ∧ key = []

/-- The rows of groups: one for each key, in the order of the keys. -/
structure Grouped (g : Grouping) (read keys : List Row) : Prop where
  mem : ∀ key, key ∈ keys ↔ g.HasGroup read key
  ordered : keys.Pairwise fun a b => Value.totalCompareRows a b = .lt
  keyed : ∀ row ∈ read, ∃ key, Formula.evalList row g.keys = .ok key

theorem rows_eq_ok {input rows : Rows} (h : g.rows input = .ok rows) :
    ∃ read keys, input.collect = .ok read ∧ g.Grouped read keys ∧
      rows.toList = keys.map (g.rowOf read) := by
  obtain ⟨groups, hgroups, h⟩ := Result.bind_eq_ok.mp h
  obtain ⟨read, hread, hgroups⟩ := Rows.fold_eq_ok.mp hgroups
  have hhold := (hold_empty g).addRows hgroups
  rw [List.nil_append] at hhold
  split at h
  · next hsingle =>
      cases h
      obtain ⟨hempty, hkeys⟩ := Bool.and_eq_true_iff.mp hsingle
      have hnone := Std.TreeMap.isEmpty_iff_forall_not_mem.mp hempty
      have hread' : read = [] := by
        refine List.eq_nil_iff_forall_not_mem.mpr fun row hrow => ?_
        obtain ⟨key, hkey⟩ := hhold.keyed row hrow
        exact hnone key ((hhold.mem key).mpr ⟨row, hrow, hkey⟩)
      subst hread'
      refine ⟨[], [[]], hread, ⟨fun key => ?_, List.pairwise_singleton _ _, hhold.keyed⟩, ?_⟩
      · simp [HasGroup, List.isEmpty_iff.mp hkeys]
      · rfl
  · next hmany =>
      cases h
      refine ⟨read, groups.keys, hread, ⟨fun key => ?_, Std.TreeMap.ordered_keys, hhold.keyed⟩, ?_⟩
      · rw [Std.TreeMap.mem_keys, hhold.mem]
        refine ⟨.inl, ?_⟩
        rintro (hrow | ⟨hkeys, rfl⟩)
        · exact hrow
        · -- the one group has rows, or it would have come out alone
          rw [hkeys] at hmany ⊢
          by_contra hnone
          refine hmany (Bool.and_eq_true_iff.mpr ⟨?_, rfl⟩)
          refine Std.TreeMap.isEmpty_iff_forall_not_mem.mpr fun key hkey => ?_
          obtain ⟨row, hrow, hkey⟩ := (hhold.mem key).mp hkey
          exact hnone ⟨row, hrow, rfl⟩
      · rw [Rows.toList_each]
        exact hhold.toList_map

end Grouping

end DialectDb
