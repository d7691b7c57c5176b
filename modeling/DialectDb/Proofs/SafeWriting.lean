/-
Writing rows fails only for what values are. Once the names of a
statement are resolved, it could still fail for a row with too few or too
many values; but the rows that are written come from rows of the table,
which have one for each column, or are built from its columns. So the
proofs carry along that the rows there are ones that the table holds, and
take that from the proofs that statements keep a store valid. What is
evaluated on the way was resolved in a scope as wide as the row that it
is evaluated on.
-/
import DialectDb.Proofs.Merging
import DialectDb.Proofs.Places
import DialectDb.Proofs.ScopedRows
import DialectDb.Proofs.Where

namespace DialectDb

open DialectDb.Action

-- ============================================================= actions

namespace Action

variable {σ α β : Type} {allowed : Error → Prop} {x : Action σ α} {s : σ}

/-- An action that fails in allowed ways only, from this state. -/
def FailsOnly (allowed : Error → Prop) (x : Action σ α) (s : σ) : Prop :=
  Yields allowed (fun _ => True) (x.perform s).1

/-- An action that fails only for what values are, from this state. -/
abbrev OnValues (x : Action σ α) (s : σ) : Prop :=
  x.FailsOnly Error.OfValues s

theorem failsOnly_pure (a : α) : (pure a : Action σ α).FailsOnly allowed s := .ok a

theorem failsOnly_get : (get : Action σ σ).FailsOnly allowed s := .ok s

theorem failsOnly_set (t : σ) : (set t : Action σ PUnit).FailsOnly allowed s := .ok PUnit.unit

theorem failsOnly_lift {r : Result α} (h : Yields allowed (fun _ => True) r) :
    (liftM r : Action σ α).FailsOnly allowed s := h

theorem failsOnly_bind {f : α → Action σ β} (hx : x.FailsOnly allowed s)
    (hf : x.Ensures s fun a mid => (f a).FailsOnly allowed mid) :
    (x >>= f).FailsOnly allowed s := by
  unfold FailsOnly at *
  rw [perform_bind]
  rcases hperform : x.perform s with ⟨e | a, mid⟩
  · rw [hperform] at hx
    exact .fail (hx.of_error e rfl)
  · exact hf a mid hperform

/-- What comes after a computation that touches no state. -/
theorem failsOnly_lift_bind {P : α → Prop} {r : Result α} {f : α → Action σ β}
    (hr : Yields allowed P r) (hf : ∀ a, r = .ok a → P a → (f a).FailsOnly allowed s) :
    ((liftM r : Action σ α) >>= f).FailsOnly allowed s :=
  failsOnly_bind (failsOnly_lift hr.forget)
    (ensures_lift fun a ha => hf a ha (hr.of_ok a ha))

theorem failsOnly_map {g : α → β} (hx : x.FailsOnly allowed s) : (g <$> x).FailsOnly allowed s := by
  unfold FailsOnly
  rw [perform_map]
  exact hx.map fun _ _ => trivial

theorem failsOnly_get_bind {f : σ → Action σ β} (h : (f s).FailsOnly allowed s) :
    ((get : Action σ σ) >>= f).FailsOnly allowed s :=
  failsOnly_bind failsOnly_get (ensures_get h)

theorem failsOnly_forM {I : σ → Prop} {f : α → Action σ PUnit} {items : List α}
    (safe : ∀ a ∈ items, ∀ s, I s → (f a).FailsOnly allowed s)
    (step : ∀ a ∈ items, ∀ s, I s → (f a).Ensures s fun _ after => I after) :
    ∀ s, I s → (items.forM f).FailsOnly allowed s := by
  induction items with
  | nil => exact fun _ _ => failsOnly_pure PUnit.unit
  | cons a rest ih =>
      intro s hs
      refine failsOnly_bind (safe a List.mem_cons_self s hs)
        ((step a List.mem_cons_self s hs).mono fun _ mid hmid => ?_)
      exact ih (fun b hb => safe b (List.mem_cons_of_mem a hb))
        (fun b hb => step b (List.mem_cons_of_mem a hb)) mid hmid

theorem failsOnly_foldlM {I : σ → Prop} {f : β → α → Action σ β} {items : List α}
    (safe : ∀ a ∈ items, ∀ b s, I s → (f b a).FailsOnly allowed s)
    (step : ∀ a ∈ items, ∀ b s, I s → (f b a).Ensures s fun _ after => I after) :
    ∀ b s, I s → (items.foldlM f b).FailsOnly allowed s := by
  induction items with
  | nil => exact fun b _ _ => failsOnly_pure b
  | cons a rest ih =>
      intro b s hs
      rw [List.foldlM_cons]
      refine failsOnly_bind (safe a List.mem_cons_self b s hs)
        ((step a List.mem_cons_self b s hs).mono fun b' mid hmid => ?_)
      exact ih (fun c hc => safe c (List.mem_cons_of_mem a hc))
        (fun c hc => step c (List.mem_cons_of_mem a hc)) b' mid hmid

end Action

/-- A change of a table's rows fails in allowed ways only if it does on
the copy that it works on. -/
theorem Store.failsOnly_mutate {α : Type} {allowed : Error → Prop} {name : String}
    {change : Table → Action (Array Row) α} {store : Store} {stored : StoredTable}
    (hget : store.get name = .ok stored)
    (h : (change stored.table).FailsOnly allowed stored.rows.toArray) :
    (mutate name change).FailsOnly allowed store := by
  unfold Action.FailsOnly at *
  rw [perform_mutate change hget]
  rcases hperform : (change stored.table).perform stored.rows.toArray with ⟨e | a, rows⟩
  · rw [hperform] at h
    exact .fail (h.of_error e rfl)
  · exact .ok a

-- ================================================================ rows

namespace Table

variable {t : Table}

theorem onRow_normalizeValue (c : Column) (value : Value) :
    OnRow (normalizeValue c value) :=
  .bind (Value.onRow_coerce _ _) fun value _ _ =>
    .guard trivial fun _ => .ok value

theorem onRow_normalizeValues (columns : List Column) (row : Row) :
    OnRow (normalizeValues columns row) := by
  induction columns generalizing row with
  | nil => exact .ok []
  | cons c columns ih =>
      cases row with
      | nil => exact .ok []
      | cons value row =>
          refine .bind (onRow_normalizeValue c value) fun first _ _ => ?_
          exact .bind (ih row) fun rest _ _ => .ok _

/-- With a value for every column, a row can be refused only for what
the values are. -/
theorem onRow_normalizeRow {row : Row} (h : row.length = t.columns.length) :
    OnRow (t.normalizeRow row) := by
  unfold normalizeRow
  rw [if_pos h]
  exact onRow_normalizeValues _ _

theorem onValues_checkUnique (rows : Array Row) (row : Row) (skip : Option Nat) :
    OnValues (t.checkUnique rows row skip) :=
  .forM fun _ _ => .ite (fun _ => .constraint _) fun _ => .ok _

theorem onValues_checkPlaces (rows : Array Row) (places : List Nat) :
    OnValues (t.checkPlaces rows places) :=
  .forM fun _ _ => onValues_checkUnique _ _ _

theorem onValues_append (row : Row) (rows : Array Row) : (t.append row).OnValues rows :=
  failsOnly_get_bind (failsOnly_lift_bind (onValues_checkUnique _ _ _) fun _ _ _ => failsOnly_set _)

theorem onRow_buildRow (places : List Nat) (values : List Value) :
    OnRow (t.buildRow places values) := by
  refine .bind (.mapM (Q := fun _ => True) fun entry _ => ?_)
    fun row hrow _ => onRow_normalizeRow ?_
  · dsimp only
    split
    · exact .ok _
    · unfold Column.fallback
      split
      · exact .ok _
      · exact .fail trivial
  · rw [← (Result.mapM_eq_ok.mp hrow).length_eq, List.length_zipIdx]

theorem width_ofColumns (t : Table) (label : String) :
    (Scope.ofColumns label t.columnNames).width = t.columns.length := by
  rw [Scope.width_ofColumns, columnNames, List.length_map]

theorem columnIndex_yields (t : Table) (name : String) :
    Yields Error.NoPlace (· < t.columns.length) (t.columnIndex name) := by
  unfold columnIndex
  split
  · next index hindex =>
      exact .pure (List.findIdx?_eq_some_iff_getElem.mp hindex).1
  · exact .fail trivial

theorem places_yields (t : Table) (names : List String) {places : List Nat}
    (h : ∀ index ∈ places, index < t.columns.length) :
    Yields Error.NoPlace (fun places => ∀ index ∈ places, index < t.columns.length)
      (t.places names places) := by
  induction names generalizing places with
  | nil => exact .pure h
  | cons name rest ih =>
      refine .bind (t.columnIndex_yields name) fun index _ hindex => .guard trivial fun _ => ih ?_
      intro place hplace
      rcases List.mem_append.mp hplace with hplace | hplace
      · exact h place hplace
      · exact List.mem_singleton.mp hplace ▸ hindex

theorem valuePlaces_yields (t : Table) (columns : Option (List String)) :
    Yields Error.NoPlace (fun places => ∀ index ∈ places, index < t.columns.length)
      (t.valuePlaces columns) := by
  cases columns with
  | none => exact .pure fun index hindex => List.mem_range.mp hindex
  | some names => exact t.places_yields names fun _ hindex => absurd hindex List.not_mem_nil

end Table

theorem placeSafe_checkValueCount (columns : Option (List String)) (places count : Nat) :
    PlaceSafe (checkValueCount columns places count) :=
  .ite (fun _ => .fail trivial) fun _ => .ok _

namespace PlaceAssignment

/-- An assignment to a column that there is, of a formula that looks only
at places that there are. -/
structure Within (t : Table) (width : Nat) (a : PlaceAssignment) : Prop where
  index : a.index < t.columns.length
  formula : a.formula.Within width

variable {t : Table} {input : Row} {assignments : List PlaceAssignment}

theorem onValues_applyAll (h : ∀ a ∈ assignments, a.Within t input.length) (row : Row) :
    OnValues (applyAll input assignments row) := by
  induction assignments generalizing row with
  | nil => exact .ok row
  | cons a rest ih =>
      obtain ⟨hfirst, hrest⟩ := List.forall_mem_cons.mp h
      exact .bind (Formula.onValues_eval _ hfirst.formula) fun _ _ _ => ih hrest _

theorem length_applyAll {row after : Row} (h : applyAll input assignments row = .ok after) :
    after.length = row.length := by
  induction assignments generalizing row with
  | nil =>
      cases h
      rfl
  | cons a rest ih =>
      obtain ⟨value, -, h⟩ := Result.bind_eq_ok.mp h
      rw [ih h, List.length_set]

/-- Assignments to a row that a table holds leave a row of its width. -/
theorem onValues_normalized {row : Row} (hrow : t.Holds row)
    (h : ∀ a ∈ assignments, a.Within t input.length) :
    OnValues (applyAll input assignments row >>= t.normalizeRow) := by
  refine .bind (onValues_applyAll h row) fun after hafter _ => ?_
  exact (Table.onRow_normalizeRow ((length_applyAll hafter).trans hrow.length_eq.symm)).onValues

end PlaceAssignment

/-- The assignments that a list resolves to in a scope. -/
theorem Assignment.resolveList_yields {t : Table} {scope : Scope} (h : scope.Sound)
    (assignments : List Assignment) :
    Yields Error.NoPlace (fun resolved => ∀ a ∈ resolved, PlaceAssignment.Within t scope.width a)
      (resolveList t scope assignments) := by
  refine .mapM fun a _ => .bind (t.columnIndex_yields a.column) fun index _ hindex => ?_
  exact .bind (Scope.resolve_yields a.value h) fun formula _ hformula => .pure ⟨hindex, hformula⟩

-- ============================================================== UPDATE

variable {t : Table}

/-- At the places that there are stand rows that the table holds. -/
theorem Table.holds_getD {rows : Array Row} {index : Nat} (hindex : index < rows.size)
    (h : ∀ row ∈ rows.toList, t.Holds row) : t.Holds (rows[index]?.getD []) := by
  rw [Array.getElem?_eq_getElem hindex]
  exact h _ (Array.getElem_mem_toList hindex)

theorem onValues_updateRow {assignments : List PlaceAssignment}
    (hassignments : ∀ a ∈ assignments, a.Within t t.columns.length) {index : Nat}
    {rows : Array Row} (hindex : index < rows.size) (h : ∀ row ∈ rows.toList, t.Holds row) :
    (updateRow t assignments index).OnValues rows := by
  have hrow := Table.holds_getD hindex h
  have hwithin : ∀ a ∈ assignments, a.Within t (rows[index]?.getD []).length :=
    hrow.length_eq ▸ hassignments
  have hwritten := PlaceAssignment.onValues_normalized hrow hwithin
  unfold updateRow
  refine failsOnly_get_bind
    (failsOnly_lift_bind (PlaceAssignment.onValues_applyAll hwithin _) fun updated hupdated _ => ?_)
  rw [hupdated] at hwritten
  exact failsOnly_lift_bind hwritten fun _ _ _ => .ok _

/-- An update leaves as many rows, all of them rows that the table
holds. -/
theorem updateRow_keeps (assignments : List PlaceAssignment) (index : Nat) {count : Nat}
    {rows : Array Row} (h : rows.size = count ∧ ∀ row ∈ rows.toList, t.Holds row) :
    (updateRow t assignments index).Ensures rows fun _ after =>
      after.size = count ∧ ∀ row ∈ after.toList, t.Holds row := by
  refine (updateRow_ensures assignments index rows).mono fun _ after hafter => ?_
  obtain ⟨row, hrow, rfl⟩ := hafter
  exact ⟨Array.size_setIfInBounds.trans h.1, Table.holds_set h.2 hrow⟩

theorem updates_keep (assignments : List PlaceAssignment) (places : List Nat) {count : Nat}
    {rows : Array Row} (h : rows.size = count ∧ ∀ row ∈ rows.toList, t.Holds row) :
    (places.forM (updateRow t assignments)).Ensures rows fun _ after =>
      after.size = count ∧ ∀ row ∈ after.toList, t.Holds row :=
  ensures_forM (fun index _ _ hcurrent => updateRow_keeps assignments index hcurrent) rows h

theorem onValues_updateRows {assignments : List PlaceAssignment}
    (hassignments : ∀ a ∈ assignments, a.Within t t.columns.length) {places : List Nat}
    {rows : Array Row} (hplaces : ∀ index ∈ places, index < rows.size)
    (h : ∀ row ∈ rows.toList, t.Holds row) :
    (updateRows t assignments places).OnValues rows := by
  have hloop : (places.forM (updateRow t assignments)).OnValues rows := by
    refine failsOnly_forM (fun index hindex current hcurrent => ?_)
      (fun index _ _ hcurrent => updateRow_keeps assignments index hcurrent) rows ⟨rfl, h⟩
    exact onValues_updateRow hassignments (hcurrent.1 ▸ hplaces index hindex) hcurrent.2
  unfold updateRows
  refine failsOnly_bind hloop fun _ after _ => ?_
  exact failsOnly_get_bind (failsOnly_lift (Table.onValues_checkPlaces _ _))

-- ============================================================== INSERT

namespace Insert

theorem conflict?_lt {keys : List (List Nat)} {rows : Array Row} {row : Row} {index : Nat}
    (h : conflict? keys rows row = some index) : index < rows.size := by
  obtain ⟨key, -, hkey⟩ := List.exists_of_findSome?_eq_some h
  unfold collision? at hkey
  dsimp only at hkey
  split at hkey
  · cases hkey
  · exact (Array.findIdx?_eq_some_iff_getElem.mp hkey).1

theorem onValues_upsertRow {assignments : List PlaceAssignment}
    (hassignments : ∀ a ∈ assignments, a.Within t (t.columns.length + t.columns.length))
    {index : Nat} {proposed : Row} (hproposed : t.Holds proposed) {rows : Array Row}
    (hindex : index < rows.size) (h : ∀ row ∈ rows.toList, t.Holds row) :
    (upsertRow t assignments index proposed).OnValues rows := by
  have hrow := Table.holds_getD hindex h
  have hwithin : ∀ a ∈ assignments, a.Within t (rows[index]?.getD [] ++ proposed).length := by
    rw [List.length_append, ← hrow.length_eq, ← hproposed.length_eq]
    exact hassignments
  have hwritten := PlaceAssignment.onValues_normalized hrow hwithin
  unfold upsertRow
  refine failsOnly_get_bind
    (failsOnly_lift_bind (PlaceAssignment.onValues_applyAll hwithin _) fun updated hupdated _ => ?_)
  rw [hupdated] at hwritten
  refine failsOnly_lift_bind hwritten fun normal _ _ => ?_
  exact failsOnly_lift_bind (Table.onValues_checkUnique _ _ _) fun _ _ _ => failsOnly_set _

variable {r : Resolution}

theorem onValues_writeRow
    (hr : ∀ a ∈ r.assignments, a.Within t (t.columns.length + t.columns.length)) {row : Row}
    (hrow : t.Holds row) {rows : Array Row} (h : ∀ row ∈ rows.toList, t.Holds row) :
    (writeRow t r row).OnValues rows := by
  have hpure : ∀ {x : Action (Array Row) Unit}, x.OnValues rows →
      (x >>= fun _ => pure 1 : Action (Array Row) Nat).OnValues rows :=
    fun hx => failsOnly_bind hx fun _ _ _ => failsOnly_pure 1
  unfold writeRow
  refine failsOnly_get_bind ?_
  split
  · next index hconflict =>
      split
      · exact failsOnly_pure 0
      · split
        · exact hpure (Table.onValues_append row rows)
        · exact hpure (onValues_upsertRow hr hrow (conflict?_lt hconflict) h)
  · exact hpure (Table.onValues_append row rows)

theorem onValues_writeRows
    (hr : ∀ a ∈ r.assignments, a.Within t (t.columns.length + t.columns.length))
    {written : List Row} (hwritten : ∀ row ∈ written, t.Holds row) {rows : Array Row}
    (h : t.ValidRows rows.toList) : (writeRows t r written).OnValues rows := by
  refine failsOnly_foldlM (I := fun rows => t.ValidRows rows.toList) ?_ ?_ 0 rows h
  · intro row hrow count current hcurrent
    exact failsOnly_bind (onValues_writeRow hr (hwritten row hrow) hcurrent.holds) fun _ _ _ =>
      failsOnly_pure _
  · intro row hrow count current hcurrent
    refine ensures_bind ((writeRow_ensures r (hwritten row hrow) hcurrent).mono ?_)
    exact fun _ after hafter => ensures_pure hafter

/-- Upsert assignments see two rows of the table. -/
theorem conflictScope_yields (t : Table) :
    Yields Error.NoPlace
      (fun scope => scope.Sound ∧ scope.width = t.columns.length + t.columns.length)
      (conflictScope t) := by
  refine (Scope.merge_yields (Scope.sound_ofColumns _ _) _).mono fun scope hscope hsound => ?_
  have hwidth := congrArg₂ (· + ·) (t.width_ofColumns t.name) (t.width_ofColumns excludedTable)
  exact ⟨hsound, (Scope.merge_width hscope).trans hwidth⟩

theorem resolution_yields (i : Insert) (t : Table) :
    Yields Error.NoPlace
      (fun r => (∀ key ∈ r.keys, ∀ index ∈ key, index < t.columns.length) ∧
        ∀ a ∈ r.assignments, a.Within t (t.columns.length + t.columns.length))
      (i.resolution t) := by
  have hkeys : Yields Error.NoPlace
      (fun keys => ∀ key ∈ keys, ∀ index ∈ key, index < t.columns.length) (i.conflictKeys t) := by
    refine .ite (fun _ => .pure fun key hkey index hindex => ?_) fun _ => ?_
    · exact Table.uniqueKeys_lt hkey hindex
    · refine .bind (.mapM fun name _ => t.columnIndex_yields name) fun key _ hkey => .pure ?_
      exact List.forall_mem_singleton.mpr hkey
  refine .bind hkeys fun keys _ hkeys => ?_
  refine .bind (conflictScope_yields t) fun scope _ hscope => ?_
  refine .bind (Assignment.resolveList_yields hscope.1 i.assignments) fun resolved _ hresolved => ?_
  exact .pure ⟨hkeys, hscope.2 ▸ hresolved⟩

end Insert

-- =============================================================== MERGE

/-- A failure for what values are, or for a clause of MERGE that does not
fit whether there is a match. -/
def Error.OfClauses (e : Error) : Prop :=
  e.OfValues ∨ e = .invalid .insertForMatched ∨ e = .invalid .insertOnlyForUnmatched

theorem Error.OfValues.ofClauses {e : Error} (h : e.OfValues) : e.OfClauses := .inl h

theorem Error.OfClauses.noPlace {e : Error} (h : e.OfClauses) : e.NoPlace := by
  rcases h with h | rfl | rfl
  · exact h.noPlace
  · trivial
  · trivial

theorem Error.OfClauses.noName {e : Error} (h : e.OfClauses) : e.NoName := by
  rcases h with h | rfl | rfl
  · exact h.noName
  · trivial
  · trivial

/-- A computation that fails only for what values are and for how the
clauses of MERGE are. -/
abbrev OnClauses {α : Type} (r : Result α) : Prop :=
  Yields Error.OfClauses (fun _ => True) r

theorem OnValues.onClauses {α : Type} {r : Result α} (h : OnValues r) : OnClauses r :=
  h.weaken fun _ he => he.ofClauses

namespace Merge

/-- What a clause does is within a width. -/
def ClauseAction.Within (t : Table) (width : Nat) : ClauseAction → Prop
  | .update assignments => ∀ a ∈ assignments, a.Within t width
  | .delete => True
  | .insert places values =>
    (∀ index ∈ places, index < t.columns.length) ∧ Formula.WithinList width values

structure Clause.Within (t : Table) (width : Nat) (c : Clause) : Prop where
  condition : ∀ e ∈ c.condition, e.Within width
  action : c.action.Within t width

theorem resolveClause_yields (t : Table) {scope : Scope} (h : scope.Sound) (c : MergeClause) :
    Yields Error.NoPlace (Clause.Within t scope.width) (resolveClause t scope c) := by
  have hcondition : Yields Error.NoPlace (fun condition => ∀ e ∈ condition, e.Within scope.width)
      (c.condition.mapM scope.resolve) :=
    .optionMapM fun e _ => Scope.resolve_yields e h
  have haction : Yields Error.NoPlace (ClauseAction.Within t scope.width)
      (resolveAction t scope c.action) := by
    cases c.action with
    | update assignments =>
        exact .bind (Assignment.resolveList_yields h assignments) fun _ _ hresolved =>
          .pure hresolved
    | delete => exact .pure trivial
    | insert columns values =>
        refine .bind (t.valuePlaces_yields columns) fun places _ hplaces => ?_
        refine .bind (placeSafe_checkValueCount _ _ _) fun _ _ _ => ?_
        exact .bind (Scope.resolveList_yields values h) fun _ _ hvalues => .pure ⟨hplaces, hvalues⟩
  exact .bind hcondition fun _ _ hcondition => .bind haction fun _ _ haction =>
    .pure ⟨hcondition, haction⟩

theorem resolveClauses_yields (t : Table) {scope : Scope} (h : scope.Sound)
    (clauses : List MergeClause) :
    Yields Error.NoPlace (fun resolved => ∀ c ∈ resolved, c.Within t scope.width)
      (resolveClauses t scope clauses) :=
  .mapM fun c _ => resolveClause_yields t h c

/-- The rows to merge have a value for each of their columns. -/
theorem sourceRows_regular {version : DialectVersion} {store : Store} (hstore : store.Valid)
    {source : MergeSource} {scope : Scope} {rows : List Row}
    (h : sourceRows version store source = .ok (scope, rows)) :
    ∀ row ∈ rows, row.length = scope.width := by
  cases source with
  | table table =>
      obtain ⟨relation, hrelation, h⟩ := Result.bind_eq_ok.mp h
      cases h
      intro row hrow
      have hcontext : ({ store } : Context).Regular :=
        ⟨hstore, fun _ hcte => absurd hcte List.not_mem_nil⟩
      rw [hcontext.relation hrelation row hrow, Scope.width_ofColumns]
  | query q aliasName =>
      obtain ⟨answer, hanswer, h⟩ := Result.bind_eq_ok.mp h
      obtain ⟨read, hread, h⟩ := Result.bind_eq_ok.mp h
      cases h
      intro row hrow
      rw [(Select.evaluate_regular hanswer).collect hread row hrow, Scope.width_ofColumns]

/-- Conditions and assignments see a row of the target and one of the
source. -/
theorem scope_yields (t : Table) (label : String) (sourceScope : Scope) :
    Yields Error.NoPlace
      (fun scope => scope.Sound ∧ scope.width = t.columns.length + sourceScope.width)
      ((Scope.ofColumns label t.columnNames).merge sourceScope) := by
  refine (Scope.merge_yields (Scope.sound_ofColumns _ _) _).mono fun scope hscope hsound => ?_
  refine ⟨hsound, ?_⟩
  rw [Scope.merge_width hscope, t.width_ofColumns]

variable {input : Row} {clauses : List Clause}

theorem firstApplicable_yields (h : ∀ c ∈ clauses, c.Within t input.length) :
    Yields Error.OfValues (fun action => ∀ a ∈ action, a.Within t input.length)
      (firstApplicable input clauses) := by
  induction clauses with
  | nil => exact .pure fun _ => nofun
  | cons c rest ih =>
      obtain ⟨hc, hrest⟩ := List.forall_mem_cons.mp h
      refine .bind (Formula.onValues_holds hc.condition) fun holds _ _ => ?_
      exact .ite (fun _ => .pure (fun _ ha => Option.mem_some.mp ha ▸ hc.action)) fun _ => ih hrest

theorem onClauses_fateOf {target : Row} (htarget : t.Holds target) {action : Option ClauseAction}
    (h : ∀ a ∈ action, a.Within t input.length) : OnClauses (fateOf t target input action) := by
  unfold fateOf
  split
  · exact .ok _
  · next assignments =>
      have hwithin : ∀ a ∈ assignments, a.Within t input.length := h _ rfl
      have hwritten := PlaceAssignment.onValues_normalized htarget hwithin
      refine OnValues.onClauses (.bind (PlaceAssignment.onValues_applyAll hwithin _) ?_)
      intro row hrow _
      rw [hrow] at hwritten
      exact .map hwritten fun _ _ => trivial
  · exact .ok _
  · exact .fail (.inr (.inl rfl))

variable {width : Nat} {predicate : Formula} {source : Row}

theorem onClauses_matchTargets (hpredicate : predicate.Within (t.columns.length + width))
    (hclauses : ∀ c ∈ clauses, c.Within t (t.columns.length + width))
    (hsource : source.length = width) {targets : List Target}
    (h : ∀ target ∈ targets, t.Holds target.row) :
    OnClauses (matchTargets t predicate clauses source targets) := by
  induction targets with
  | nil => exact .ok _
  | cons target rest ih =>
      obtain ⟨htarget, hrest⟩ := List.forall_mem_cons.mp h
      have hwidth : t.columns.length + width = (target.row ++ source).length := by
        rw [List.length_append, htarget.length_eq, hsource]
      rw [hwidth] at hpredicate hclauses
      have hholds : OnValues (Formula.holds (some predicate) (target.row ++ source)) :=
        Formula.onValues_holds fun _ he => Option.mem_some.mp he ▸ hpredicate
      refine .bind (OnValues.onClauses hholds) fun holds _ _ => ?_
      split
      · split
        · have hfirst := (firstApplicable_yields hclauses).weaken fun _ he => he.ofClauses
          refine .bind hfirst fun action _ haction => ?_
          refine .bind (onClauses_fateOf htarget haction) fun fate _ _ => ?_
          exact .bind (ih hrest) fun _ _ _ => .ok _
        · exact .fail (.inl trivial)
      · exact .bind (ih hrest) fun _ _ _ => .ok _

theorem onClauses_insertion (hclauses : ∀ c ∈ clauses, c.Within t (t.columns.length + width))
    (hsource : source.length = width) : OnClauses (insertion t clauses source) := by
  have hwidth : t.columns.length + width =
      (List.replicate t.columns.length .null ++ source : Row).length := by
    rw [List.length_append, List.length_replicate, hsource]
  rw [hwidth] at hclauses
  have hfirst := (firstApplicable_yields hclauses).weaken fun _ he => he.ofClauses
  refine .bind hfirst fun action _ haction => ?_
  split
  · exact .ok _
  · next places values =>
      have hvalues := (haction _ rfl).2
      refine OnValues.onClauses (.bind (Formula.onValues_evalList _ hvalues) fun values _ _ => ?_)
      exact .map (Table.onRow_buildRow _ _).onValues fun _ _ => trivial
  · exact .fail (.inr (.inr rfl))

theorem onClauses_takeSources (hpredicate : predicate.Within (t.columns.length + width))
    (hclauses : ∀ c ∈ clauses, c.Within t (t.columns.length + width)) {before : List Row}
    (hbefore : ∀ row ∈ before, t.Holds row) {source : List Row}
    (hsource : ∀ row ∈ source, row.length = width) {p : Progress} (hp : p.Sound t before) :
    OnClauses (takeSources t predicate clauses p source) := by
  have hsome : ∀ keep : Clause → Bool, ∀ c ∈ clauses.filter keep,
      c.Within t (t.columns.length + width) :=
    fun keep c hc => hclauses c (List.mem_of_mem_filter hc)
  have hstep : ∀ row ∈ source, ∀ p : Progress, p.Sound t before →
      Yields Error.OfClauses (Progress.Sound t before) (takeSource t predicate clauses p row) := by
    intro row hrow p hp
    have htargets : ∀ target ∈ p.targets, t.Holds target.row := fun target htarget =>
      hbefore _ (hp.rows ▸ List.mem_map_of_mem htarget)
    refine ⟨fun after hafter => takeSource_sound hp hafter, ?_⟩
    refine (Yields.bind (onClauses_matchTargets hpredicate (hsome _) (hsource row hrow) htargets)
      fun matched _ _ => ?_ : OnClauses (takeSource t predicate clauses p row)).of_error
    dsimp only
    split
    · exact .ok _
    · exact .bind (onClauses_insertion (hsome _) (hsource row hrow)) fun _ _ _ => .ok _
  exact (Yields.foldlM hstep hp).forget

theorem mergeRows_failsOnly (hpredicate : predicate.Within (t.columns.length + width))
    (hclauses : ∀ c ∈ clauses, c.Within t (t.columns.length + width)) {source : List Row}
    (hsource : ∀ row ∈ source, row.length = width) {rows : Array Row}
    (h : ∀ row ∈ rows.toList, t.Holds row) :
    (mergeRows t predicate clauses source).FailsOnly Error.OfClauses rows := by
  unfold mergeRows
  refine failsOnly_get_bind ?_
  refine failsOnly_lift_bind
    (onClauses_takeSources hpredicate hclauses h hsource (sound_start t rows.toList)) ?_
  intro p _ _
  refine failsOnly_lift_bind (OnValues.onClauses (Table.onValues_checkPlaces _ _)) fun _ _ _ => ?_
  exact failsOnly_bind (failsOnly_set _) fun _ _ _ => failsOnly_pure _

end Merge

end DialectDb
