/-
What UPDATE means, without its loop. Each selected row is looked at by
itself: all assignments are evaluated on its values as they were, and
what they make of it is stored in its place. The keys are judged on the
rows that are there in the end, so that rows can trade them.

The program overwrites rows while it still has others to evaluate. The
places are all different, so what it reads at each of them is the row
that was there at the start (`perform_updateLoop_eq_ok`). It checks the
keys of the rows that it has written only; the others collided with none
of each other before, and they are what they were
(`Candidate.checkPlaces_eq_ok`).
-/
import DialectDb.Proofs.Where

namespace DialectDb

open DialectDb.Action

variable {t : Table} {assignments : List PlaceAssignment}

-- ========================================================= assignments

/-- Assignments are made iff the value of each can be computed from the
same row; then the values are put in their places, one after the
other. -/
theorem PlaceAssignment.applyAll_eq_ok {input row after : Row} :
    applyAll input assignments row = .ok after ↔
      ∃ values, List.Forall₂ (fun a value => a.formula.eval input = .ok value) assignments values ∧
        after = (assignments.zip values).foldl (fun row (a, value) => row.set a.index value) row := by
  induction assignments generalizing row with
  | nil =>
      simp only [applyAll, List.forall₂_nil_left_iff]
      constructor
      · intro h
        cases h
        exact ⟨[], rfl, rfl⟩
      · rintro ⟨_, rfl, rfl⟩
        rfl
  | cons a rest ih =>
      simp only [applyAll, Result.bind_eq_ok, ih, List.forall₂_cons_left_iff]
      constructor
      · rintro ⟨value, hvalue, values, hvalues, rfl⟩
        exact ⟨_, ⟨value, values, hvalue, hvalues, rfl⟩, rfl⟩
      · rintro ⟨_, ⟨value, values, hvalue, hvalues, rfl⟩, rfl⟩
        exact ⟨value, hvalue, values, hvalues, rfl⟩

namespace Update

/-- What a row becomes: all values are computed from the row as it was,
put in their places, and stored as the columns store them. -/
def Becomes (t : Table) (assignments : List PlaceAssignment) (row new : Row) : Prop :=
  ∃ values, List.Forall₂ (fun a value => a.formula.eval row = .ok value) assignments values ∧
    t.normalizeRow
      ((assignments.zip values).foldl (fun row (a, value) => row.set a.index value) row) = .ok new

theorem becomes_iff {row new : Row} :
    Becomes t assignments row new ↔
      (PlaceAssignment.applyAll row assignments row >>= t.normalizeRow) = .ok new := by
  simp only [Becomes, Result.bind_eq_ok, PlaceAssignment.applyAll_eq_ok]
  constructor
  · rintro ⟨values, hvalues, hnew⟩
    exact ⟨_, ⟨values, hvalues, rfl⟩, hnew⟩
  · rintro ⟨_, ⟨values, hvalues, rfl⟩, hnew⟩
    exact ⟨values, hvalues, hnew⟩

-- ========================================================== candidates

/-- The rows that an update would leave: at each selected place what the
row there becomes, and elsewhere the row that there was. -/
structure Candidate (t : Table) (assignments : List PlaceAssignment) (selected : Nat → Prop)
    (before after : List Row) : Prop where
  length : after.length = before.length
  written : ∀ i row, selected i → before[i]? = some row →
    ∃ new, Becomes t assignments row new ∧ after[i]? = some new
  others : ∀ i, ¬selected i → after[i]? = before[i]?

theorem candidate_nil {before after : List Row} :
    Candidate t assignments (· ∈ []) before after ↔ after = before := by
  constructor
  · intro h
    exact List.ext_getElem? fun i => h.others i List.not_mem_nil
  · rintro rfl
    exact ⟨rfl, fun _ _ h => absurd h List.not_mem_nil, fun _ _ => rfl⟩

/-- What the row at one of the places becomes does not depend on what was
written at the others. -/
theorem candidate_cons {index : Nat} {places : List Nat} (hfresh : index ∉ places)
    {before after : List Row} {row : Row} (hrow : before[index]? = some row) :
    Candidate t assignments (· ∈ index :: places) before after ↔
      ∃ new, Becomes t assignments row new ∧
        Candidate t assignments (· ∈ places) (before.set index new) after := by
  have hindex : index < before.length := (List.getElem?_eq_some_iff.mp hrow).1
  have hne : ∀ i ∈ places, index ≠ i := fun i hi heq => hfresh (heq ▸ hi)
  constructor
  · intro h
    obtain ⟨new, hnew, hafter⟩ := h.written index row List.mem_cons_self hrow
    refine ⟨new, hnew, by rw [List.length_set, h.length], fun i old hi hold => ?_, fun i hi => ?_⟩
    · rw [List.getElem?_set_ne (hne i hi)] at hold
      exact h.written i old (List.mem_cons_of_mem _ hi) hold
    · by_cases heq : index = i
      · subst heq
        rw [hafter, List.getElem?_set_self hindex]
      · rw [List.getElem?_set_ne heq]
        exact h.others i (List.not_mem_cons_of_ne_of_not_mem (Ne.symm heq) hi)
  · rintro ⟨new, hnew, h⟩
    refine ⟨by rw [h.length, List.length_set], fun i old hi hold => ?_, fun i hi => ?_⟩
    · rcases List.mem_cons.mp hi with rfl | hi
      · cases hrow.symm.trans hold
        exact ⟨new, hnew, by rw [h.others i hfresh, List.getElem?_set_self hindex]⟩
      · refine h.written i old hi ?_
        rw [List.getElem?_set_ne (hne i hi), hold]
    · have helsewhere := (List.ne_of_not_mem_cons hi).symm
      rw [h.others i (List.not_mem_of_not_mem_cons hi), List.getElem?_set_ne helsewhere]

-- ================================================================ loop

theorem perform_updateRow_eq_ok {index : Nat} {rows after : Array Row} {row : Row}
    (hrow : rows.toList[index]? = some row) :
    (updateRow t assignments index).perform rows = (.ok ⟨⟩, after) ↔
      ∃ new, Becomes t assignments row new ∧ after.toList = rows.toList.set index new := by
  have hread : rows[index]?.getD [] = row := by
    rw [← Array.getElem?_toList, hrow]
    rfl
  unfold updateRow
  rw [perform_get_bind]
  simp only [hread, perform_lift_bind_eq_ok, becomes_iff, Result.bind_eq_ok]
  constructor
  · rintro ⟨assigned, hassigned, new, hnew, h⟩
    cases h
    exact ⟨new, ⟨assigned, hassigned, hnew⟩, Array.toList_setIfInBounds ..⟩
  · rintro ⟨new, ⟨assigned, hassigned, hnew⟩, hafter⟩
    have hset : after = rows.setIfInBounds index new :=
      Array.toList_inj.mp (hafter.trans (Array.toList_setIfInBounds ..).symm)
    exact ⟨assigned, hassigned, new, hnew, hset ▸ rfl⟩

/-- The induction is on the places that are left, over whatever rows are
there by then. -/
theorem perform_updateLoop_eq_ok {places : List Nat} (hnodup : places.Nodup)
    {rows after : Array Row} (hplaces : ∀ i ∈ places, i < rows.toList.length) :
    (places.forM (updateRow t assignments)).perform rows = (.ok ⟨⟩, after) ↔
      Candidate t assignments (· ∈ places) rows.toList after.toList := by
  induction places generalizing rows with
  | nil =>
      rw [candidate_nil, Array.toList_inj]
      show ((.ok ⟨⟩, rows) : Result PUnit × Array Row) = (.ok ⟨⟩, after) ↔ _
      exact ⟨fun h => (Prod.mk.inj h).2.symm, fun h => h ▸ rfl⟩
  | cons index places ih =>
      obtain ⟨hfresh, hnodup⟩ := List.nodup_cons.mp hnodup
      obtain ⟨hindex, hplaces⟩ := List.forall_mem_cons.mp hplaces
      have hrow := List.getElem?_eq_getElem hindex
      show (updateRow t assignments index >>= fun _ => places.forM _).perform rows = _ ↔ _
      rw [perform_bind_eq_ok, candidate_cons hfresh hrow]
      constructor
      · rintro ⟨_, mid, hmid, h⟩
        obtain ⟨new, hnew, hset⟩ := (perform_updateRow_eq_ok hrow).mp hmid
        have hbounds : ∀ i ∈ places, i < mid.toList.length := by
          rwa [hset, List.length_set]
        exact ⟨new, hnew, hset ▸ (ih hnodup hbounds).mp h⟩
      · rintro ⟨new, hnew, h⟩
        refine ⟨⟨⟩, (rows.toList.set index new).toArray, (perform_updateRow_eq_ok hrow).mpr ?_, ?_⟩
        · exact ⟨new, hnew, rfl⟩
        · refine (ih hnodup ?_).mpr h
          rwa [List.length_set]

-- ================================================================ keys

/-- The keys of the rows that were written are checked against all rows,
and that is enough. -/
theorem Candidate.checkPlaces_eq_ok {places : List Nat} {before : List Row} {after : Array Row}
    (h : Candidate t assignments (· ∈ places) before after.toList) (hbefore : t.Unique before)
    (hplaces : ∀ i ∈ places, i < before.length) :
    t.checkPlaces after places = .ok () ↔ t.Unique after.toList := by
  constructor
  · refine Table.unique_of_checkPlaces fun key hkey i j a b hij hi hj ha hb => ?_
    rw [h.others i hi] at ha
    rw [h.others j hj] at hb
    exact Table.pairwise_at (hbefore key hkey) hij ha hb
  · intro hunique
    simp only [Table.checkPlaces_eq_ok, Table.checkUnique_eq_ok, Table.mem_others_some]
    rintro i hi key hkey other ⟨j, hne, hother⟩ hcollide
    have hrow : after.toList[i]? = some (after[i]?.getD []) := by
      have hi' : i < after.toList.length := h.length ▸ hplaces i hi
      rw [← Array.getElem?_toList, List.getElem?_eq_getElem hi']
      rfl
    rcases Nat.lt_or_gt_of_ne hne with hji | hij
    · exact Table.pairwise_at (hunique key hkey) hji hother hrow hcollide.symm
    · exact Table.pairwise_at (hunique key hkey) hij hrow hother hcollide

theorem perform_updateRows_eq_ok {places : List Nat} (hnodup : places.Nodup)
    {rows after : Array Row} (hplaces : ∀ i ∈ places, i < rows.toList.length)
    (hunique : t.Unique rows.toList) :
    (updateRows t assignments places).perform rows = (.ok ⟨⟩, after) ↔
      Candidate t assignments (· ∈ places) rows.toList after.toList ∧ t.Unique after.toList := by
  unfold updateRows
  simp only [perform_bind_eq_ok, perform_updateLoop_eq_ok hnodup hplaces]
  constructor
  · rintro ⟨_, mid, hmid, _, _, hget, hcheck⟩
    cases hget
    obtain ⟨hchecked, rfl⟩ := Prod.mk.inj hcheck
    exact ⟨hmid, (hmid.checkPlaces_eq_ok hunique hplaces).mp hchecked⟩
  · rintro ⟨hafter, hfree⟩
    refine ⟨⟨⟩, after, hafter, after, after, rfl, ?_⟩
    rw [perform_lift, (hafter.checkPlaces_eq_ok hunique hplaces).mpr hfree]

-- ============================================================== places

theorem mem_selectedPlaces_iff {mask : List Bool} {i : Nat} :
    i ∈ selectedPlaces mask ↔ mask[i]? = some true := by
  simp only [selectedPlaces, List.mem_map, List.mem_filter, Prod.exists,
    List.mem_zipIdx_iff_getElem?]
  constructor
  · rintro ⟨selected, place, ⟨hplace, rfl⟩, rfl⟩
    exact hplace
  · intro hi
    exact ⟨true, i, ⟨hi, rfl⟩, rfl⟩

theorem nodup_selectedPlaces (mask : List Bool) : (selectedPlaces mask).Nodup := by
  have hall : (mask.zipIdx.map Prod.snd).Nodup := by
    rw [List.zipIdx_map_snd]
    exact List.nodup_range'
  exact hall.sublist (List.filter_sublist.map Prod.snd)

-- =========================================================== statements

variable {store : Store} {stored : StoredTable} {mask : List Bool}

/-- Once its names are resolved and its rows selected, an UPDATE succeeds
iff there is a candidate in which no rows collide, and it leaves that. -/
theorem perform_execute_eq_ok {u : Update} (hvalid : store.Valid)
    (hget : store.get u.table = .ok stored)
    (hresolve : Assignment.resolveList stored.table stored.table.scope u.assignments =
      .ok assignments)
    (hmask : stored.mask store u.predicate = .ok mask) {effect : Effect} {after : Store} :
    u.execute.perform store = (.ok effect, after) ↔
      ∃ rows, Candidate stored.table assignments (mask[·]? = some true) stored.rows rows ∧
        stored.table.Unique rows ∧ effect = .updated (mask.count true) ∧
        after = store.setRows (Store.keyOf u.table) rows := by
  have hunique := (hvalid.tables _ (Store.get_mem hget)).unique
  obtain ⟨keep, rfl⟩ := StoredTable.mask_eq_map hmask
  have hplaces : ∀ i ∈ selectedPlaces (stored.rows.map keep), i < stored.rows.length := by
    intro i hi
    obtain ⟨row, hrow, -⟩ := mem_selectedPlaces.mp hi
    exact (List.getElem?_eq_some_iff.mp hrow).1
  have hselected : (· ∈ selectedPlaces (stored.rows.map keep)) =
      fun i => (stored.rows.map keep)[i]? = some true :=
    funext fun i => propext mem_selectedPlaces_iff
  have hcount : (selectedPlaces (stored.rows.map keep)).length =
      (stored.rows.map keep).count true := by
    rw [length_selectedPlaces, List.count, List.countP_map, ← List.countP_eq_length_filter]
    exact List.countP_congr fun row _ => by simp
  have hwritten (rows : Array Row) :
      (updateRows stored.table assignments (selectedPlaces (stored.rows.map keep))).perform
          stored.rows.toArray = (.ok ⟨⟩, rows) ↔
        Candidate stored.table assignments ((stored.rows.map keep)[·]? = some true) stored.rows
          rows.toList ∧ stored.table.Unique rows.toList := by
    rw [perform_updateRows_eq_ok (nodup_selectedPlaces _) hplaces hunique, hselected]
  unfold execute
  rw [perform_get_bind]
  simp only [perform_lift_bind_eq_ok, hget, hresolve, hmask, Except.ok.injEq, exists_eq_left']
  simp only [perform_bind_eq_ok, Store.perform_mutate_eq_ok hget]
  constructor
  · rintro ⟨⟨⟩, _, ⟨rows, hrows, rfl⟩, h⟩
    obtain ⟨hrows, hfree⟩ := (hwritten rows).mp hrows
    cases h
    exact ⟨rows.toList, hrows, hfree, by rw [hcount], rfl⟩
  · rintro ⟨rows, hrows, hfree, rfl, rfl⟩
    refine ⟨⟨⟩, _, ⟨rows.toArray, (hwritten _).mpr ⟨hrows, hfree⟩, rfl⟩, ?_⟩
    rw [hcount]
    rfl

end Update

/-- Where its names are resolved and its rows are selected, an UPDATE
succeeds iff each selected row becomes one that the table can store, by
values that are all computed from the row as it was, and no two of the
rows that are there then collide on a key. It then leaves these rows, in
their places, and counts those that were selected. -/
theorem Statement.update_means (version : DialectVersion) {store : Store} (hvalid : store.Valid)
    {u : Update} {stored : StoredTable} (hget : store.get u.table = .ok stored)
    {assignments : List PlaceAssignment}
    (hresolve : Assignment.resolveList stored.table stored.table.scope u.assignments =
      .ok assignments)
    {mask : List Bool} (hmask : stored.mask store u.predicate = .ok mask) (outcome : Outcome)
    (after : Store) :
    ((update u).execute version).perform store = (.ok outcome, after) ↔
      ∃ rows, Update.Candidate stored.table assignments (mask[·]? = some true) stored.rows rows ∧
        stored.table.Unique rows ∧ outcome = .effect (.updated (mask.count true)) ∧
        after = store.setRows (Store.keyOf u.table) rows := by
  rw [execute, perform_map, Prod.ext_iff, Result.map_eq_ok]
  constructor
  · rintro ⟨⟨effect, heffect, rfl⟩, hafter⟩
    obtain ⟨rows, hrows, hunique, rfl, hstore⟩ :=
      (Update.perform_execute_eq_ok hvalid hget hresolve hmask).mp (Prod.ext heffect hafter)
    exact ⟨rows, hrows, hunique, rfl, hstore⟩
  · rintro ⟨rows, hrows, hunique, rfl, hstore⟩
    obtain ⟨hresult, hafter⟩ := Prod.ext_iff.mp
      ((Update.perform_execute_eq_ok hvalid hget hresolve hmask).mpr
        ⟨rows, hrows, hunique, rfl, hstore⟩)
    exact ⟨⟨_, hresult, rfl⟩, hafter⟩

namespace Updating

/-- `UPDATE Pages SET id = link, link = id WHERE id IN (SELECT link FROM
Pages)` -/
def turned : Update where
  table := "Pages"
  assignments := [⟨"id", .column none "link"⟩, ⟨"link", .column none "id"⟩]
  predicate := some Where.linked

/-- The two pages that refer to each other trade their keys, each of
which is the other's until both are written. -/
theorem turned_pages :
    ((Statement.update turned).execute ⟨.sqLite, 3⟩).perform ⟨[⟨"pages", Where.pages⟩]⟩ =
      (.ok (.effect (.updated 2)), ⟨[⟨"pages", { Where.pages with
        rows := [[.integer 2, .integer 1], [.integer 1, .integer 2], [.integer 3, .null]] }⟩]⟩) := by
  let trades : List PlaceAssignment := [⟨0, .column 1⟩, ⟨1, .column 0⟩]
  have hmask : Where.pages.mask ⟨[⟨"pages", Where.pages⟩]⟩ turned.predicate =
      .ok [true, true, false] := by rfl
  have hresolve : Assignment.resolveList Where.pages.table Where.pages.table.scope
      turned.assignments = .ok trades := by rfl
  have hrows : Update.Candidate Where.pages.table trades ([true, true, false][·]? = some true)
      Where.pages.rows
      [[.integer 2, .integer 1], [.integer 1, .integer 2], [.integer 3, .null]] := by
    refine ⟨rfl, fun i row hi hrow => ?_, fun i hi => ?_⟩
    · match i with
      | 0 => cases hrow; exact ⟨_, ⟨[_, _], .cons rfl (.cons rfl .nil), rfl⟩, rfl⟩
      | 1 => cases hrow; exact ⟨_, ⟨[_, _], .cons rfl (.cons rfl .nil), rfl⟩, rfl⟩
      | 2 => cases hi
      | i + 3 => cases hi
    · match i with
      | 0 => exact absurd rfl hi
      | 1 => exact absurd rfl hi
      | 2 => rfl
      | i + 3 => rfl
  have hunique : Where.pages.table.Unique
      [[.integer 2, .integer 1], [.integer 1, .integer 2], [.integer 3, .null]] := by
    intro key hkey
    cases List.mem_singleton.mp hkey
    have hkeys : ([[.integer 2, .integer 1], [.integer 1, .integer 2], [.integer 3, .null]].map
        (Table.keyValues [0])).Nodup := by decide
    exact (List.pairwise_map.mp hkeys).imp fun hne hcollide => hne hcollide.1
  exact (Statement.update_means ⟨.sqLite, 3⟩ Where.pages_valid rfl hresolve hmask _ _).mpr
    ⟨_, hrows, hunique, rfl, rfl⟩

end Updating

end DialectDb
