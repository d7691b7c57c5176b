/-
Grouping keeps the values of expressions. After grouping, an expression
is resolved anew: what the query groups by is recognized wherever it
occurs and becomes a place in the row of the group, and a column is
looked up among the grouping expressions that are columns. Whatever it
becomes, its value on the row of a group is the one that it has on every
row of the group, or the same failure.
-/
import DialectDb.Proofs.Enclosing
import DialectDb.Proofs.Groups
import DialectDb.Proofs.Where

namespace DialectDb

-- ============================================================= formulas

namespace Formula

/-- Whether LIKE has a pattern that is fixed beforehand makes no
difference to its value. -/
theorem eval_like {left right f : Formula} (h : like left right = .ok f) (row : Row) :
    f.eval row = (binary .like left right).eval row := by
  unfold like at h
  split at h
  · next text =>
      obtain ⟨pattern, hpattern, h⟩ := Result.bind_eq_ok.mp h
      cases h
      have htext : pattern.text = text := by
        unfold Pattern.ofText at hpattern
        split at hpattern <;> cases hpattern
        rfl
      simp only [eval, Result.ok_bind]
      refine bind_congr fun value => ?_
      show value.likePattern pattern = Value.like value (.string text)
      cases value <;> simp [Value.like, Value.likePattern, hpattern, htext]
  · cases h
    rfl

theorem eval_binaryFormula {op : BinaryOp} {left right f : Formula}
    (h : Scope.binaryFormula op left right = .ok f) (row : Row) :
    f.eval row = (binary op left right).eval row := by
  unfold Scope.binaryFormula at h
  split at h
  · next hop =>
      rw [hop]
      exact eval_like h row
  · cases h
    rfl

/-- Formulas of which each has the same value on its own row. -/
def AlikeOn (row out : Row) (f f' : Formula) : Prop :=
  f'.eval out = f.eval row

variable {row out : Row}

theorem evalList_alike {fs fs' : List Formula} (h : List.Forall₂ (AlikeOn row out) fs fs') :
    evalList out fs' = evalList row fs := by
  induction h with
  | nil => rfl
  | cons hfirst _ ih => rw [evalList, evalList, hfirst, ih]

theorem evalMembership_alike {fs fs' : List Formula} (h : List.Forall₂ (AlikeOn row out) fs fs')
    (value otherwise : Value) :
    evalMembership out value otherwise fs' = evalMembership row value otherwise fs := by
  induction h generalizing otherwise with
  | nil => rfl
  | cons hfirst _ ih =>
      rw [evalMembership, evalMembership, hfirst]
      refine bind_congr fun item => bind_congr fun ordering => ?_
      split
      · rfl
      · exact ih otherwise
      · exact ih .null

/-- Values in a row are those of the formulas in their places. -/
theorem getElem?_evalList {fs : List Formula} {values : List Value}
    (h : evalList row fs = .ok values) {i : Nat} {f : Formula} (hf : fs[i]? = some f) :
    ∃ value, values[i]? = some value ∧ f.eval row = .ok value := by
  induction fs generalizing values i with
  | nil => cases hf
  | cons first rest ih =>
      obtain ⟨value, hvalue, h⟩ := Result.bind_eq_ok.mp h
      obtain ⟨others, hothers, h⟩ := Result.bind_eq_ok.mp h
      cases h
      cases i with
      | zero =>
          cases hf
          exact ⟨value, rfl, hvalue⟩
      | succ i => exact ih hothers hf

end Formula

-- ============================================================== columns

namespace Scope

/-- An expression has a place because it had one before or because a
column was made of it. -/
theorem addExpressions_slot? {s : Scope} {columns : List (Expr × Label)} {e : Expr} {index : Nat}
    (h : (s.addExpressions columns).layout.slot? e = some index) :
    s.layout.slot? e = some index ∨
      ∃ i, (columns.map Prod.fst)[i]? = some e ∧ index = s.width + i := by
  induction columns generalizing s with
  | nil => exact .inl h
  | cons column rest ih =>
      rw [addExpressions_cons] at h
      have hwidth : (s.addExpression column.1 column.2).width = s.width + 1 := List.length_append
      rcases ih h with hadded | ⟨i, he, hindex⟩
      · simp only [Layout.slot?, addExpression, List.find?_append, Option.map_or] at hadded
        cases hbefore : s.layout.slots.find? (·.expr = e) with
        | some slot =>
            rw [hbefore] at hadded
            refine .inl ?_
            rw [Layout.slot?, hbefore]
            exact hadded
        | none =>
            rw [hbefore] at hadded
            by_cases he : column.1 = e
            · simp only [he, Option.map_none, Option.none_or, decide_true, List.find?_cons_of_pos,
                Option.map_some, Option.some.injEq] at hadded
              exact .inr ⟨0, congrArg some he, hadded.symm⟩
            · simp [he] at hadded
      · refine .inr ⟨i + 1, he, ?_⟩
        rw [hindex, hwidth, Nat.add_assoc, Nat.add_comm 1 i]

variable {s after : Scope} {keys es : List Expr} {g : Grouping}

/-- The place that an expression has after grouping is that of an equal
grouping expression or aggregate call. -/
theorem grouping_slot? (h : s.grouping keys es = .ok (after, g)) {e : Expr} {index : Nat}
    (hslot : after.layout.slot? e = some index) :
    (keys ++ aggregateCalls es)[index]? = some e := by
  obtain ⟨hkeys, rfl⟩ := grouping_eq_ok h
  have hlength := (Result.mapM_eq_ok.mp hkeys).length_eq
  rcases addExpressions_slot? hslot with hslot | ⟨i, he, rfl⟩
  · cases hslot
  · rw [List.map_append, List.map_fst_zip (by simp only [List.length_map, hlength, Nat.le_refl]),
      List.map_map] at he
    show (keys ++ aggregateCalls es)[0 + i]? = some e
    rw [Nat.zero_add, ← he]
    congr 2
    exact (List.map_id _).symm

/-- A scope without places for expressions has no use for aggregate
calls. -/
theorem resolve_isAggregate (hslots : s.layout.slots = []) {e : Expr} (he : e.isAggregate = true)
    (f : Formula) : s.resolve e ≠ .ok f := by
  intro h
  cases e with
  | call name arguments =>
      simp only [resolve, Layout.slot?_eq_none hslots] at h
      rw [if_pos (by simpa [Expr.isAggregate] using he)] at h
      cases h
  | _ => cases he

/-- A place that an expression has after grouping holds what the
expression is, if it means something before grouping. -/
theorem grouping_key_of_slot (hslots : s.layout.slots = [])
    (h : s.grouping keys es = .ok (after, g)) {e : Expr} {index : Nat}
    (hslot : after.layout.slot? e = some index) {f : Formula} (hf : s.resolve e = .ok f) :
    g.keys[index]? = some f := by
  have hexprs := grouping_slot? h hslot
  have hall := Result.mapM_eq_ok.mp (grouping_eq_ok h).1
  by_cases hlt : index < keys.length
  · rw [List.getElem?_append_left hlt] at hexprs
    have hlt' : index < g.keys.length := hall.length_eq ▸ hlt
    have hresolved := hall.get hlt hlt'
    rw [List.getElem?_eq_getElem hlt, Option.some.injEq] at hexprs
    rw [List.get_eq_getElem, List.get_eq_getElem, hexprs] at hresolved
    rw [List.getElem?_eq_getElem hlt']
    exact congrArg some (Except.ok.inj (hresolved.symm.trans hf))
  · rw [List.getElem?_append_right (Nat.le_of_not_lt hlt)] at hexprs
    have hcall : e ∈ aggregateCalls es := List.mem_of_getElem? hexprs
    have haggregate := (List.mem_filter.mp (List.mem_eraseDups.mp hcall)).2
    exact absurd hf (resolve_isAggregate hslots haggregate f)

/-- A column that is found after grouping is one of the grouping
expressions, and the same column is found before. -/
theorem grouping_key_of_find? (h : s.grouping keys es = .ok (after, g)) {table : Option String}
    {name : String} {index before : Nat} (hafter : after.layout.find? table name = .ok (some index))
    (hbefore : s.layout.find? table name = .ok (some before)) :
    g.keys[index]? = some (.column before) := by
  obtain ⟨label, hlabel, hnamed, -⟩ := Layout.find?_eq_some hafter
  obtain ⟨-, -, -, honly⟩ := Layout.find?_eq_some hbefore
  rw [grouping_labels h] at hlabel
  by_cases hlt : index < (g.keys.map (columnLabel s)).length
  · rw [List.getElem?_append_left hlt, List.getElem?_map, Option.map_eq_some_iff] at hlabel
    obtain ⟨formula, hformula, rfl⟩ := hlabel
    cases formula with
    | column i =>
        cases hi : s.layout.labels[i]? with
        | none => simp [columnLabel, labels, hi, Label.isNamed] at hnamed
        | some own =>
            have hown : columnLabel s (.column i) = own := by simp [columnLabel, labels, hi]
            rw [hown] at hnamed
            rwa [honly i own hi hnamed] at hformula
    | _ => cases hnamed
  · rw [List.getElem?_append_right (Nat.le_of_not_lt hlt)] at hlabel
    obtain ⟨_, -, hnone⟩ := List.mem_map.mp (List.mem_of_getElem? hlabel)
    subst hnone
    cases hnamed

-- =========================================================== resolution

/-- A row before grouping and one behind it: no rows are around, and the
values of the grouping formulas come first in the second. -/
structure GroupedTo (s after : Scope) (g : Grouping) (row out : Row) : Prop where
  slots : s.layout.slots = []
  outer : s.outer = []
  grouping : ∃ keys es, s.grouping keys es = .ok (after, g)
  values : ∃ key rest, Formula.evalList row g.keys = .ok key ∧ out = key ++ rest

variable {row out : Row}

/-- A place of a grouping formula holds its value. -/
theorem GroupedTo.column (h : GroupedTo s after g row out) {index : Nat} {f : Formula}
    (hf : g.keys[index]? = some f) : f.AlikeOn row out (.column index) := by
  obtain ⟨key, rest, hkey, rfl⟩ := h.values
  obtain ⟨value, hvalue, heval⟩ := Formula.getElem?_evalList hkey hf
  have hlt := (List.getElem?_eq_some_iff.mp hvalue).1
  rw [Formula.AlikeOn, heval, Formula.eval, List.getElem?_append_left hlt, hvalue]

theorem GroupedTo.found (h : GroupedTo s after g row out) {table : Option String} {name : String}
    {index before : Nat} (hafter : after.layout.find? table name = .ok (some index))
    (hbefore : s.layout.find? table name = .ok (some before)) :
    (Formula.column before).AlikeOn row out (.column index) := by
  obtain ⟨keys, es, hgrouping⟩ := h.grouping
  exact h.column (grouping_key_of_find? hgrouping hafter hbefore)

/-- Without rows around, a column is one of the scope. -/
theorem find?_of_resolveColumn (houter : s.outer = []) {table : Option String} {name : String}
    {f : Formula} (h : s.resolveColumn table name = .ok f) :
    ∃ index, s.layout.find? table name = .ok (some index) ∧ f = .column index := by
  obtain ⟨place, hplace, h⟩ := Result.bind_eq_ok.mp h
  cases place with
  | some index =>
      cases h
      exact ⟨index, hplace, rfl⟩
  | none =>
      rw [houter] at h
      cases h

theorem find?_of_lookup {table : Option String} {name : String} {index : Nat}
    (h : s.lookup table name = .ok index) : s.layout.find? table name = .ok (some index) := by
  obtain ⟨place, hplace, h⟩ := Result.bind_eq_ok.mp h
  cases place with
  | some index =>
      cases h
      exact hplace
  | none => cases h

theorem GroupedTo.after_outer (h : GroupedTo s after g row out) : after.outer = [] := by
  obtain ⟨keys, es, hgrouping⟩ := h.grouping
  rw [(grouping_eq_ok hgrouping).2, addExpressions_outer]
  exact h.outer

mutual

/-- The induction is on the expression, and the scopes stay what they
are: a part of it can be recognized where the whole is not. -/
theorem GroupedTo.resolve (h : GroupedTo s after g row out) : ∀ (e : Expr) {f f' : Formula},
    s.resolve e = .ok f → after.resolve e = .ok f' → f.AlikeOn row out f'
  | e, f, f', hf, hf' => by
    cases hslot : after.layout.slot? e with
    | some index =>
        rw [resolve_of_slot hslot] at hf'
        cases hf'
        obtain ⟨keys, es, hgrouping⟩ := h.grouping
        exact h.column (grouping_key_of_slot h.slots hgrouping hslot hf)
    | none =>
        have hnone := Layout.slot?_eq_none h.slots e
        cases e with
        | column table name =>
            simp only [Scope.resolve, hnone] at hf
            simp only [Scope.resolve, hslot] at hf'
            obtain ⟨before, hbefore, rfl⟩ := find?_of_resolveColumn h.outer hf
            obtain ⟨index, hafter, rfl⟩ := find?_of_resolveColumn h.after_outer hf'
            exact h.found hafter hbefore
        | excluded column =>
            simp only [Scope.resolve, hnone] at hf
            simp only [Scope.resolve, hslot] at hf'
            obtain ⟨before, hbefore, rfl⟩ := Result.map_eq_ok.mp hf
            obtain ⟨index, hafter, rfl⟩ := Result.map_eq_ok.mp hf'
            exact h.found (find?_of_lookup hafter) (find?_of_lookup hbefore)
        | literal value =>
            simp only [Scope.resolve, hnone] at hf
            simp only [Scope.resolve, hslot] at hf'
            cases hf
            cases hf'
            rfl
        | call name arguments =>
            simp only [Scope.resolve, hnone] at hf
            simp only [Scope.resolve, hslot] at hf'
            split at hf
            · cases hf
            · next hscalar =>
                rw [if_neg hscalar] at hf'
                obtain ⟨function, hfunction, hf⟩ := Result.bind_eq_ok.mp hf
                obtain ⟨_, hsame, hf'⟩ := Result.bind_eq_ok.mp hf'
                cases hfunction.symm.trans hsame
                obtain ⟨fs, hfs, hf⟩ := Result.bind_eq_ok.mp hf
                obtain ⟨fs', hfs', hf'⟩ := Result.bind_eq_ok.mp hf'
                cases hf
                cases hf'
                have hlist := Formula.evalList_alike (h.resolveList arguments hfs hfs')
                rw [Formula.AlikeOn, Formula.eval, Formula.eval, hlist]
        | unary op operand =>
            simp only [Scope.resolve, hnone] at hf
            simp only [Scope.resolve, hslot] at hf'
            obtain ⟨o, ho, hf⟩ := Result.bind_eq_ok.mp hf
            obtain ⟨o', ho', hf'⟩ := Result.bind_eq_ok.mp hf'
            cases hf
            cases hf'
            have hoperand := h.resolve operand ho ho'
            rw [Formula.AlikeOn, Formula.eval, Formula.eval, hoperand]
        | binary op left right =>
            simp only [Scope.resolve, hnone] at hf
            simp only [Scope.resolve, hslot] at hf'
            obtain ⟨l, hl, hf⟩ := Result.bind_eq_ok.mp hf
            obtain ⟨r, hr, hf⟩ := Result.bind_eq_ok.mp hf
            obtain ⟨l', hl', hf'⟩ := Result.bind_eq_ok.mp hf'
            obtain ⟨r', hr', hf'⟩ := Result.bind_eq_ok.mp hf'
            have hleft := h.resolve left hl hl'
            have hright := h.resolve right hr hr'
            -- a constant pattern may have become a place, which is no constant
            rw [Formula.AlikeOn, Formula.eval_binaryFormula hf, Formula.eval_binaryFormula hf',
              Formula.eval, Formula.eval, hleft, hright]
        | inList operand items =>
            simp only [Scope.resolve, hnone] at hf
            simp only [Scope.resolve, hslot] at hf'
            obtain ⟨o, ho, hf⟩ := Result.bind_eq_ok.mp hf
            obtain ⟨fs, hfs, hf⟩ := Result.bind_eq_ok.mp hf
            obtain ⟨o', ho', hf'⟩ := Result.bind_eq_ok.mp hf'
            obtain ⟨fs', hfs', hf'⟩ := Result.bind_eq_ok.mp hf'
            cases hf
            cases hf'
            have hoperand := h.resolve operand ho ho'
            have hitems := Formula.evalMembership_alike (h.resolveList items hfs hfs')
            rw [Formula.AlikeOn, Formula.eval, Formula.eval, hoperand]
            simp only [hitems]
        | _ =>
            simp only [Scope.resolve, hnone] at hf
            cases hf
termination_by structural e => e

theorem GroupedTo.resolveList (h : GroupedTo s after g row out) :
    ∀ (es : List Expr) {fs fs' : List Formula}, s.resolveList es = .ok fs →
      after.resolveList es = .ok fs' → List.Forall₂ (Formula.AlikeOn row out) fs fs'
  | [], _, _, hfs, hfs' => by
    cases hfs
    cases hfs'
    exact .nil
  | e :: es, _, _, hfs, hfs' => by
    obtain ⟨f, hf, hfs⟩ := Result.bind_eq_ok.mp hfs
    obtain ⟨rest, hrest, hfs⟩ := Result.bind_eq_ok.mp hfs
    obtain ⟨f', hf', hfs'⟩ := Result.bind_eq_ok.mp hfs'
    obtain ⟨rest', hrest', hfs'⟩ := Result.bind_eq_ok.mp hfs'
    cases hfs
    cases hfs'
    exact .cons (h.resolve e hf hf') (h.resolveList es hrest hrest')
termination_by structural es => es

end

end Scope

-- ============================================================== queries

/-- After grouping there is one row for each group, and each row from
before is in the group of its key. An expression that has a meaning both
before and after grouping has the same value on the row of a group as on
every row of the group, or fails in the same way. -/
theorem Select.arranged_keeps_values {q : Select} {orderBy : List SortKey} {context : Context}
    (houter : context.outer = []) {condition : Option Condition} {source passed arranged : Source}
    (hsource : Source.ofClause context q.source q.joins = .ok source)
    (hpassed : filtered condition source = .ok passed) (hgrouped : q.isGrouped orderBy = true)
    (harranged : q.arranged orderBy passed = .ok arranged) :
    ∃ (g : Grouping) (read keys : List Row),
      passed.scope.grouping q.groupBy (q.groupedExprs orderBy) = .ok (arranged.scope, g) ∧
      passed.rows.collect = .ok read ∧ g.Grouped read keys ∧
      arranged.rows.toList = keys.map (g.rowOf read) ∧
      (∀ row ∈ read, ∃ key ∈ keys, row ∈ g.members read key) ∧
      ∀ key ∈ keys, ∀ out, g.rowOf read key = .ok out → ∀ row ∈ g.members read key,
        ∀ e f f', passed.scope.resolve e = .ok f → arranged.scope.resolve e = .ok f' →
          f'.eval out = f.eval row := by
  rw [Select.arranged, if_pos hgrouped] at harranged
  obtain ⟨⟨scope, g⟩, hgrouping, harranged⟩ := Result.bind_eq_ok.mp harranged
  obtain ⟨rows, hrows, harranged⟩ := Result.bind_eq_ok.mp harranged
  cases harranged
  obtain ⟨read, keys, hread, hkeys, hlist⟩ := Grouping.rows_eq_ok hrows
  refine ⟨g, read, keys, hgrouping, hread, hkeys, hlist, fun row hrow => ?_, ?_⟩
  · obtain ⟨key, hkey⟩ := hkeys.keyed row hrow
    have hmem := (hkeys.mem key).mpr (.inl ⟨row, hrow, hkey⟩)
    exact ⟨key, hmem, Grouping.mem_members.mpr ⟨hrow, hkey⟩⟩
  · intro key _ out hout row hrow e f f' hf hf'
    obtain ⟨values, rfl, -⟩ := Grouping.rowOf_eq_ok hout
    obtain ⟨hplain, hslots⟩ := Source.ofClause_plain hsource
    have hscope := filtered_scope hpassed
    have hgroupedTo : passed.scope.GroupedTo scope g row (key ++ values) :=
      { slots := hscope ▸ hslots
        outer := hscope ▸ hplain.trans houter
        grouping := ⟨_, _, hgrouping⟩
        values := ⟨key, values, (Grouping.mem_members.mp hrow).2, rfl⟩ }
    exact hgroupedTo.resolve e hf hf'

namespace Where

/-- `id % 2` -/
def parity : Expr :=
  .binary .remainder (.column none "id") (.literal (.integer 2))

/-- `id % 2 = 1` -/
def odd : Expr :=
  .binary .equal parity (.literal (.integer 1))

/-- `SELECT COUNT(link) FROM Pages GROUP BY id % 2` -/
def parities : Select :=
  { Select.allWhere "Pages" none with
    columns := [⟨.call "count" [.column none "link"], none⟩], groupBy := [parity] }

/-- The pages 1 and 3 make one row, of which `id % 2 = 1` is as true as
of each of them, though there is no `id` in it. -/
theorem parities_keep_values :
    ∃ source arranged,
      Source.ofClause { store := ⟨[⟨"pages", pages⟩]⟩ } parities.source parities.joins =
        .ok source ∧
      parities.isGrouped [] = true ∧ parities.arranged [] source = .ok arranged ∧
      arranged.rows.toList = [.ok [.integer 0, .integer 1], .ok [.integer 1, .integer 1]] ∧
      ∃ f f',
        source.scope.resolve odd = .ok f ∧ arranged.scope.resolve odd = .ok f' ∧
        f'.eval [.integer 1, .integer 1] = f.eval [.integer 1, .integer 2] ∧
        f'.eval [.integer 1, .integer 1] = f.eval [.integer 3, .null] := by
  refine ⟨_, _, rfl, rfl, rfl, rfl, _, _, rfl, rfl, ?_⟩
  obtain ⟨g, read, keys, hgrouping, hread, -, -, hmem, hvalues⟩ :=
    @Select.arranged_keeps_values parities [] { store := ⟨[⟨"pages", pages⟩]⟩ } rfl none _ _ _ rfl
      rfl rfl rfl
  cases hgrouping
  cases hread
  obtain ⟨key, hkey, hfirst⟩ := hmem [.integer 1, .integer 2] (by decide)
  cases (Grouping.mem_members.mp hfirst).2
  refine ⟨hvalues _ hkey _ rfl _ hfirst odd _ _ rfl rfl, ?_⟩
  exact hvalues _ hkey _ rfl [.integer 3, .null] (Grouping.mem_members.mpr ⟨by decide, rfl⟩) odd
    _ _ rfl rfl

end Where

end DialectDb
