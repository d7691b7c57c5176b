/-
What the changes of a store do to its entries, one lemma for each of
them. Whatever the change of a table's rows does to its copy, the store
sees nothing of it unless it succeeds; so the contracts of the writing
statements all come from `mutate_guarantees`.
-/
import DialectDb.Store
import DialectDb.Proofs.Action

namespace DialectDb.Store

open DialectDb.Action

variable {α : Type}

-- ============================================================ look-up

/-- The table that is found under a name is in one of the entries, with
the key of that name. -/
theorem find?_mem {s : Store} {name : String} {stored : StoredTable}
    (h : s.find? name = some stored) : ⟨keyOf name, stored⟩ ∈ s.entries := by
  unfold find? at h
  obtain ⟨e, he, rfl⟩ := Option.map_eq_some_iff.mp h
  have hkey : e.key = keyOf name := by
    have := List.find?_some he
    exact of_decide_eq_true this
  rw [← hkey]
  exact List.mem_of_find?_eq_some he

theorem get_mem {s : Store} {name : String} {stored : StoredTable}
    (h : s.get name = .ok stored) : ⟨keyOf name, stored⟩ ∈ s.entries := by
  unfold get at h
  split at h
  · next found hfound =>
      cases h
      exact find?_mem hfound
  · cases h

-- ======================================================== CREATE TABLE

/-- A new entry goes between two parts of the entries there were. -/
theorem insertEntry_split (new : Entry) (entries : List Entry) :
    ∃ before rest, entries = before ++ rest ∧
      insertEntry new entries = before ++ new :: rest := by
  induction entries with
  | nil => exact ⟨[], [], rfl, rfl⟩
  | cons e entries ih =>
      unfold insertEntry
      split
      · exact ⟨[], e :: entries, rfl, rfl⟩
      · obtain ⟨before, rest, hsplit, hinsert⟩ := ih
        exact ⟨e :: before, rest, by rw [hsplit, List.cons_append],
          by rw [hinsert, List.cons_append]⟩

/-- Creating a table fails and changes nothing, or it puts a valid table
without rows under a key that no entry had. -/
theorem createTable_guarantees (table : Table) (s : Store) :
    (createTable table).Guarantees s fun _ after =>
      table.validate = .ok () ∧ (∀ e ∈ s.entries, e.key ≠ keyOf table.name) ∧
        after.entries = insertEntry ⟨keyOf table.name, ⟨table, []⟩⟩ s.entries := by
  unfold createTable
  refine guarantees_lift_bind fun _ hvalid => guarantees_get_bind ?_
  dsimp only
  split
  · exact guarantees_throw
  · next hfree =>
      refine ⟨hvalid, fun e he hkey => hfree ?_, rfl⟩
      exact List.any_eq_true.mpr ⟨e, he, decide_eq_true hkey⟩

/-- Whether that succeeds depends on the names of the tables there
are. -/
theorem createTable_result (table : Table) (s : Store) :
    ((createTable table).perform s).1 = (do
      table.validate
      if s.entries.any (·.key = keyOf table.name) then
        throw (.schema (.tableExists table.name))) := by
  unfold createTable
  rw [perform_lift_bind_fst]
  refine bind_congr fun _ => (congrArg Prod.fst (perform_get_bind _ s)).trans ?_
  dsimp only
  split <;> rfl

-- ========================================================== DROP TABLE

/-- Dropping a table fails and changes nothing, or it leaves the entries
that have another key. -/
theorem dropTable_guarantees (name : String) (ifExists : Bool) (s : Store) :
    (dropTable name ifExists).Guarantees s fun _ after =>
      after.entries = s.entries.filter (·.key ≠ keyOf name) := by
  unfold dropTable
  refine guarantees_get_bind ?_
  dsimp only
  split
  · exact rfl
  · next hnone =>
      have hkept : s.entries.filter (·.key ≠ keyOf name) = s.entries := by
        refine List.filter_eq_self.mpr fun e he => decide_eq_true fun hkey => hnone ?_
        exact List.any_eq_true.mpr ⟨e, he, decide_eq_true hkey⟩
      split
      · exact hkept.symm
      · exact guarantees_throw

theorem dropTable_result (name : String) (ifExists : Bool) (s : Store) :
    ((dropTable name ifExists).perform s).1 =
      if s.entries.any (·.key = keyOf name) then .ok true
      else if ifExists then .ok false
      else .error (.schema (.noTable name)) := by
  unfold dropTable
  refine (congrArg Prod.fst (perform_get_bind _ s)).trans ?_
  dsimp only
  split
  · rfl
  · split <;> rfl

-- ===================================================== changes of rows

/-- A change of a table's rows fails and changes nothing, whatever it
has done to its copy; or its result and the rows of the copy are those
that the change ensures. -/
theorem mutate_guarantees {name : String} {change : Table → Action (Array Row) α} {s : Store}
    {R : α → Store → Prop}
    (h : ∀ stored, s.get name = .ok stored →
      (change stored.table).Ensures stored.rows.toArray fun a rows =>
        R a (s.setRows (keyOf name) rows.toList)) :
    (mutate name change).Guarantees s R := by
  unfold mutate
  refine guarantees_get_bind (guarantees_lift_bind fun stored hstored => ?_)
  dsimp only
  refine guarantees_lift_bind fun a ha => ?_
  exact h stored hstored a _ (Prod.ext ha rfl)

/-- The table under a name has the rows that were put under its key. -/
theorem get_setRows {s : Store} {name : String} {stored : StoredTable}
    (h : s.get name = .ok stored) (rows : List Row) :
    (s.setRows (keyOf name) rows).get name = .ok ⟨stored.table, rows⟩ := by
  have hfind : (s.setRows (keyOf name) rows).find? name =
      (s.find? name).map fun stored => ⟨stored.table, rows⟩ := by
    unfold find? setRows
    rw [List.find?_map, Option.map_map, Option.map_map]
    have hkey : ((fun e : Entry => decide (e.key = keyOf name)) ∘ fun e =>
        if e.key = keyOf name then { e with stored := { e.stored with rows } } else e) =
          fun e => decide (e.key = keyOf name) := by
      funext e
      dsimp only [Function.comp_apply]
      split <;> rfl
    rw [hkey]
    cases hentry : s.entries.find? fun e => decide (e.key = keyOf name) with
    | none => rfl
    | some e =>
        have hfound := List.find?_some hentry
        simp [of_decide_eq_true hfound]
  unfold get at h ⊢
  rw [hfind]
  cases hstored : s.find? name with
  | none => simp [hstored] at h
  | some found =>
      simp only [hstored, Except.ok.injEq] at h
      subst h
      rfl

/-- Of two changes of a table's rows, the second counts. -/
theorem setRows_setRows (s : Store) (key : String) (rows rows' : List Row) :
    (s.setRows key rows).setRows key rows' = s.setRows key rows' := by
  unfold setRows
  rw [List.map_map]
  congr 1
  refine List.map_congr_left fun e _ => ?_
  by_cases hkey : e.key = key <;> simp [hkey]

end DialectDb.Store
