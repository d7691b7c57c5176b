/-
The columns after grouping: one of each grouping expression and one of
each aggregate call, in this order. Such a column is known by the whole
expression, and by a name only if the expression is itself a column.
-/
import DialectDb.Proofs.Scoping

namespace DialectDb

-- ============================================================== columns

namespace Layout

/-- A reference is left open iff no column answers to it. -/
theorem find?_eq_none_iff {layout : Layout} {table : Option String} {name : String} :
    layout.find? table name = .ok none ↔
      ∀ label ∈ layout.labels, label.isNamed table name = false := by
  have hempty : layout.find? table name = .ok none ↔
      layout.labels.zipIdx.filter (·.1.isNamed table name) = [] := by
    unfold find?
    split
    · next hfilter => exact iff_of_true rfl hfilter
    · next hfilter => simp [hfilter]
    · next hfilter => simp [hfilter]
  rw [hempty, List.filter_eq_nil_iff]
  constructor
  · intro h label hlabel
    obtain ⟨i, hi⟩ := List.mem_iff_getElem?.mp hlabel
    simpa using h (label, i) (List.mk_mem_zipIdx_iff_getElem?.mpr hi)
  · rintro h ⟨label, i⟩ hmem
    have hlabel := List.mem_of_getElem? (List.mk_mem_zipIdx_iff_getElem?.mp hmem)
    simpa using h label hlabel

/-- A column that a reference finds answers to it, and no other does. -/
theorem find?_eq_some {layout : Layout} {table : Option String} {name : String} {index : Nat}
    (h : layout.find? table name = .ok (some index)) :
    ∃ label, layout.labels[index]? = some label ∧ label.isNamed table name = true ∧
      ∀ i l, layout.labels[i]? = some l → l.isNamed table name = true → i = index := by
  unfold find? at h
  split at h
  · cases h
  · next label only hfilter =>
      cases h
      have hmem {l : Label} {i : Nat} : (l, i) ∈ [(label, index)] ↔
          layout.labels[i]? = some l ∧ l.isNamed table name = true := by
        rw [← hfilter, List.mem_filter, List.mk_mem_zipIdx_iff_getElem?]
      obtain ⟨hlabel, hnamed⟩ := hmem.mp List.mem_cons_self
      refine ⟨label, hlabel, hnamed, fun i l hl hnamed => ?_⟩
      have hsame := List.mem_singleton.mp (hmem.mpr ⟨hl, hnamed⟩)
      exact congrArg Prod.snd hsame
  · cases h

theorem find?_lt {layout : Layout} {table : Option String} {name : String} {index : Nat}
    (h : layout.find? table name = .ok (some index)) : index < layout.labels.length := by
  obtain ⟨label, hlabel, -, -⟩ := find?_eq_some h
  exact (List.getElem?_eq_some_iff.mp hlabel).1

end Layout

namespace Scope

/-- Appends columns that hold the values of expressions. -/
def addExpressions (s : Scope) (columns : List (Expr × Label)) : Scope :=
  columns.foldl (fun s column => s.addExpression column.1 column.2) s

theorem addExpressions_cons (s : Scope) (e : Expr) (label : Label) (rest : List (Expr × Label)) :
    s.addExpressions ((e, label) :: rest) = (s.addExpression e label).addExpressions rest := rfl

theorem addExpressions_append (s : Scope) (before after : List (Expr × Label)) :
    s.addExpressions (before ++ after) = (s.addExpressions before).addExpressions after :=
  List.foldl_append

@[simp] theorem addExpressions_outer (s : Scope) (columns : List (Expr × Label)) :
    (s.addExpressions columns).outer = s.outer := by
  induction columns generalizing s with
  | nil => rfl
  | cons column rest ih =>
      rw [addExpressions_cons, ih]
      rfl

theorem addExpressions_labels (s : Scope) (columns : List (Expr × Label)) :
    (s.addExpressions columns).layout.labels = s.layout.labels ++ columns.map Prod.snd := by
  induction columns generalizing s with
  | nil => exact (List.append_nil _).symm
  | cons column rest ih =>
      rw [addExpressions_cons, ih, List.map_cons]
      show s.layout.labels ++ [column.2] ++ rest.map Prod.snd = _
      rw [List.append_assoc]
      rfl

/-- The expressions that have places are those that had one and those of
the columns. -/
theorem addExpressions_hasSlot (s : Scope) (columns : List (Expr × Label)) (e : Expr) :
    (s.addExpressions columns).layout.hasSlot e =
      (s.layout.hasSlot e || decide (e ∈ columns.map Prod.fst)) := by
  induction columns generalizing s with
  | nil => exact (Bool.or_false _).symm
  | cons column rest ih =>
      have hhead : (s.addExpression column.1 column.2).layout.hasSlot e =
          (s.layout.hasSlot e || decide (e = column.1)) := by
        simp only [Layout.hasSlot, Layout.slot?, addExpression, List.find?_append]
        cases s.layout.slots.find? (·.expr = e) <;> by_cases h : e = column.1 <;> simp [h, eq_comm]
      rw [addExpressions_cons, ih, hhead, Bool.or_assoc, List.map_cons]
      simp only [List.mem_cons, Bool.decide_or]

end Scope

-- ============================================================= grouping

theorem addKeys_eq_ok {s grouped after : Scope} {keys : List Expr} {formulas : List Formula}
    (h : addKeys s keys grouped = .ok (after, formulas)) :
    keys.mapM s.resolve = .ok formulas ∧
      after = grouped.addExpressions (keys.zip (formulas.map (columnLabel s))) := by
  induction keys generalizing grouped formulas with
  | nil =>
      cases h
      exact ⟨rfl, rfl⟩
  | cons e rest ih =>
      obtain ⟨formula, hformula, h⟩ := Result.bind_eq_ok.mp h
      obtain ⟨⟨last, others⟩, hrest, h⟩ := Result.bind_eq_ok.mp h
      cases h
      obtain ⟨hothers, hlast⟩ := ih hrest
      constructor
      · rw [List.mapM_cons, hformula, hothers]
        rfl
      · rw [hlast]
        rfl

theorem addCalls_eq_ok {s grouped after : Scope} {es : List Expr} {calls : List AggregateCall}
    (h : addCalls s es grouped = .ok (after, calls)) :
    after = grouped.addExpressions ((es.filter Expr.isAggregate).map (·, .none)) := by
  induction es generalizing grouped calls with
  | nil =>
      cases h
      rfl
  | cons e rest ih =>
      cases e with
      | call name arguments =>
          simp only [addCalls] at h
          split at h
          · next hnone =>
              rw [ih h, List.filter_cons_of_neg (by simp [Expr.isAggregate, hnone])]
          · next function hsome =>
              obtain ⟨argument, -, h⟩ := Result.bind_eq_ok.mp h
              obtain ⟨⟨last, others⟩, hrest, h⟩ := Result.bind_eq_ok.mp h
              cases h
              rw [ih hrest, List.filter_cons_of_pos (by simp [Expr.isAggregate, hsome])]
              rfl
      | _ => exact ih h

/-- What grouping succeeds with: the formulas of the grouping
expressions, and columns of these expressions and of the aggregate
calls. -/
theorem Scope.grouping_eq_ok {s after : Scope} {keys es : List Expr} {g : Grouping}
    (h : s.grouping keys es = .ok (after, g)) :
    keys.mapM s.resolve = .ok g.keys ∧
      after = ({ Scope.empty with outer := s.outer } : Scope).addExpressions
        (keys.zip (g.keys.map (columnLabel s)) ++ (aggregateCalls es).map (·, .none)) := by
  obtain ⟨⟨grouped, keys⟩, hkeys, h⟩ := Result.bind_eq_ok.mp h
  obtain ⟨⟨last, calls⟩, hcalls, h⟩ := Result.bind_eq_ok.mp h
  cases h
  obtain ⟨hformulas, rfl⟩ := addKeys_eq_ok hkeys
  have hall : (aggregateCalls es).filter Expr.isAggregate = aggregateCalls es := by
    refine List.filter_eq_self.mpr fun e he => ?_
    exact (List.mem_filter.mp (List.mem_eraseDups.mp he)).2
  have hlast := addCalls_eq_ok hcalls
  rw [hall] at hlast
  exact ⟨hformulas, hlast.trans (addExpressions_append _ _ _).symm⟩

namespace Scope

variable {s after : Scope} {keys es : List Expr} {g : Grouping}

theorem mem_grouping_keys (h : s.grouping keys es = .ok (after, g)) {formula : Formula} :
    formula ∈ g.keys ↔ ∃ key ∈ keys, s.resolve key = .ok formula :=
  Result.mem_mapM (grouping_eq_ok h).1

/-- After grouping, the grouping expressions and the aggregate calls have
places. -/
theorem grouping_hasSlot (h : s.grouping keys es = .ok (after, g)) (e : Expr) :
    after.layout.hasSlot e = (decide (e ∈ keys) || decide (e ∈ aggregateCalls es)) := by
  obtain ⟨hkeys, rfl⟩ := grouping_eq_ok h
  have hlength := (Result.mapM_eq_ok.mp hkeys).length_eq
  have hexprs : (keys.zip (g.keys.map (columnLabel s)) ++
      (aggregateCalls es).map (·, Label.none)).map Prod.fst = keys ++ aggregateCalls es := by
    rw [List.map_append, List.map_fst_zip (by simp only [List.length_map, hlength, Nat.le_refl]), List.map_map]
    exact congrArg (keys ++ ·) (List.map_id _)
  rw [addExpressions_hasSlot, hexprs]
  simp only [List.mem_append, Bool.decide_or]
  rfl

/-- The labels are those that the keys have as columns; aggregates have
none. -/
theorem grouping_labels (h : s.grouping keys es = .ok (after, g)) :
    after.layout.labels =
      g.keys.map (columnLabel s) ++ (aggregateCalls es).map fun _ => Label.none := by
  obtain ⟨hkeys, rfl⟩ := grouping_eq_ok h
  have hlength := (Result.mapM_eq_ok.mp hkeys).length_eq
  rw [addExpressions_labels, List.map_append,
    List.map_snd_zip (by simp only [List.length_map, hlength, Nat.le_refl]), List.map_map]
  rfl

/-- An own column is left open after grouping iff it is not grouped by:
only a key that is this column carries its label. -/
theorem grouping_find? (h : s.grouping keys es = .ok (after, g)) {table : Option String}
    {name : String} {index : Nat} (hown : s.layout.find? table name = .ok (some index)) :
    after.layout.find? table name = .ok none ↔ Formula.column index ∉ g.keys := by
  obtain ⟨label, hlabel, hnamed, honly⟩ := Layout.find?_eq_some hown
  rw [Layout.find?_eq_none_iff, grouping_labels h]
  constructor
  · -- a key that is this column carries its label, which answers
    intro hopen hkey
    have hcolumn : columnLabel s (.column index) = label := by
      show s.layout.labels[index]?.getD .none = label
      rw [hlabel]
      rfl
    have hmem := List.mem_map_of_mem (f := columnLabel s) hkey
    rw [hcolumn] at hmem
    exact Bool.false_ne_true ((hopen label (List.mem_append_left _ hmem)).symm.trans hnamed)
  · -- a label that answers is that of a key, and no other column has it
    intro hkey l hl
    rcases List.mem_append.mp hl with hl | hl
    · obtain ⟨formula, hformula, rfl⟩ := List.mem_map.mp hl
      cases formula with
      | column i =>
          cases hi : s.layout.labels[i]? with
          | none => simp [columnLabel, labels, hi, Label.isNamed]
          | some l =>
              have hlabel : columnLabel s (.column i) = l := by simp [columnLabel, labels, hi]
              rw [hlabel]
              by_contra hnamed
              rw [Bool.not_eq_false] at hnamed
              exact hkey (honly i l hi hnamed ▸ hformula)
      | _ => rfl
    · obtain ⟨_, _, rfl⟩ := List.mem_map.mp hl
      rfl

end Scope

end DialectDb
