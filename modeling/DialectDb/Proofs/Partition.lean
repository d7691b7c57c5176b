/-
WHERE divides the rows of a FROM clause in three: those of which the
condition is true, those of which it is false, and those of which it is
unknown. `WHERE p`, `WHERE NOT p` and `WHERE p IS NULL` select one part
each. This asks of every operator that it gives the same value whether
something stands around it or not, and of both ways to filter, row by row
as they are read or all at once behind the subqueries, that they go by
that value.
-/
import DialectDb.Proofs.ScopedRows
import DialectDb.Proofs.Truth
import DialectDb.Proofs.Where

namespace DialectDb

-- ============================================================== values

namespace Expr

/-- The formula that a condition is for a row: it has the results that
its subqueries have for that row in their places. -/
def formulaFor (p : Expr) (context : Context) (scope : Scope) (row : Row) : Result Formula := do
  let e ← p.expand { context with outer := ⟨scope.layout, row⟩ :: scope.outer }
  scope.resolve e

/-- The value of a condition for a row. -/
def valueFor (p : Expr) (context : Context) (scope : Scope) (row : Row) : Result Value := do
  (← p.formulaFor context scope row).eval row

/-- The truth value of a condition for a row, if it is known. -/
def verdict (p : Expr) (context : Context) (scope : Scope) (row : Row) : Option Bool :=
  Result.truth? (p.valueFor context scope row)

end Expr

variable {context : Context} {source : Source}

theorem Scope.resolve_unary {s : Scope} (h : s.layout.slots = []) (op : UnaryOp) (e : Expr) :
    s.resolve (.unary op e) = Formula.unary op <$> s.resolve e := by
  simp only [resolve, Layout.slot?_eq_none h]
  rfl

/-- What stands around a condition takes its value, whatever the
condition is. -/
theorem Expr.valueFor_unary {s : Scope} (h : s.layout.slots = []) (op : UnaryOp) (p : Expr)
    (context : Context) (row : Row) :
    (Expr.unary op p).valueFor context s row = p.valueFor context s row >>= op.apply := by
  simp only [valueFor, formulaFor, expand, bind_assoc, pure_bind]
  refine bind_congr fun e => ?_
  rw [Scope.resolve_unary h, bind_map_left]
  rfl

-- =============================================================== WHERE

/-- Rows that are filtered as they are read can be read iff the rows
before can and the condition is true, false or NULL of each of them. -/
theorem Rows.collect_filter_eq_ok {formula : Formula} {rows : Rows} {selected : List Row} :
    (rows.filter formula).collect = .ok selected ↔
      ∃ read, rows.collect = .ok read ∧ (∀ row ∈ read, formula.Decides row) ∧
        selected = read.filter formula.isTrue := by
  have hofList {read : List Row} (h : rows.collect = .ok read) :
      (rows.filter formula).collect = marked read <$> read.mapM (Formula.holds (some formula)) := by
    rw [← collect_filter_ofList, collect_eq, collect_eq, toList_filter, toList_filter,
      collect_eq_ok.mp h, toList_ofList]
  have hjudged (read : List Row) (mask : List Bool) :
      read.mapM (Formula.holds (some formula)) = .ok mask ↔
        (∀ row ∈ read, formula.Decides row) ∧ mask = read.map formula.isTrue :=
    Result.mapM_eq_ok_map fun row _ keep => Formula.holds_some_eq_ok
  constructor
  · intro h
    -- a failure before the filter is one behind it
    have hfine : ∀ e, .error e ∉ rows.toList := by
      intro e he
      have hpassed : .error e ∈ (rows.filter formula).toList := by
        rw [toList_filter]
        exact List.mem_filterMap.mpr ⟨_, he, rfl⟩
      simp [collect_eq_ok.mp h] at hpassed
    obtain ⟨read, hread⟩ := Result.eq_map_ok hfine
    have hcollect := collect_eq_ok.mpr hread
    rw [hofList hcollect] at h
    obtain ⟨mask, hmask, rfl⟩ := Result.map_eq_ok.mp h
    obtain ⟨hdecides, rfl⟩ := (hjudged read mask).mp hmask
    exact ⟨read, hcollect, hdecides, marked_map read formula.isTrue⟩
  · rintro ⟨read, hcollect, hdecides, rfl⟩
    rw [hofList hcollect, (hjudged read _).mpr ⟨hdecides, rfl⟩, Result.map_ok, marked_map]

/-- What WHERE selects, read to the end, are the rows of which the
condition is true. It can be read iff the rows before can, the names
outside of subqueries are known, and the condition is true, false or NULL
of each row. -/
theorem Select.collect_filtered_eq_ok {p : Expr} {selected : List Row} :
    (do (← filtered (Expr.condition? context (some p)) source).rows.collect) = .ok selected ↔
      ∃ read, source.rows.collect = .ok read ∧
        (∃ formula, source.scope.resolve p.withoutSubqueries = .ok formula) ∧
        (∀ row ∈ read, Result.HasTruth (p.valueFor context source.scope row)) ∧
        selected = read.filter fun row => p.verdict context source.scope row = some true := by
  simp only [filtered, Expr.condition?, Condition.select, Condition.mask]
  by_cases hsub : p.containsSubquery = true
  · -- all rows are read, and each is judged with the results of the subqueries for it
    have hmask (read : List Row) (mask : List Bool) :
        (read.mapM fun row => do
          let e ← p.expand { context with outer := ⟨source.scope.layout, row⟩ :: source.scope.outer }
          Formula.holds (some (← source.scope.resolve e)) row) = .ok mask ↔
        (∀ row ∈ read, Result.HasTruth (p.valueFor context source.scope row)) ∧
          mask = read.map fun row => decide (p.verdict context source.scope row = some true) := by
      refine Result.mapM_eq_ok_map fun row _ keep => ?_
      rw [← bind_assoc]
      exact Formula.holds_bind_eq_ok
    simp only [if_pos hsub, bind_assoc, pure_bind, Rows.collect_ofList, Result.bind_eq_ok, hmask,
      Except.ok.injEq]
    constructor
    · rintro ⟨read, hread, formula, hformula, _, ⟨htruth, rfl⟩, rfl⟩
      exact ⟨read, hread, ⟨formula, hformula⟩, htruth, Rows.marked_map read _⟩
    · rintro ⟨read, hread, ⟨formula, hformula⟩, htruth, rfl⟩
      exact ⟨read, hread, formula, hformula, _, ⟨htruth, rfl⟩, Rows.marked_map read _⟩
  · -- each row is judged by the one formula that the condition is for all of them
    have hplain : p.containsSubquery = false := Bool.eq_false_iff.mpr hsub
    have hvalue {formula : Formula} (hformula : source.scope.resolve p = .ok formula) (row : Row) :
        p.valueFor context source.scope row = formula.eval row := by
      rw [Expr.valueFor, Expr.formulaFor, Expr.expand_eq_self hplain, Result.ok_bind, hformula]
      rfl
    have hverdict {formula : Formula} (hformula : source.scope.resolve p = .ok formula)
        (row : Row) : formula.isTrue row = decide (p.verdict context source.scope row = some true) := by
      rw [Formula.isTrue_eq, Expr.verdict, hvalue hformula]
    simp only [if_neg hsub, bind_assoc, pure_bind, Result.bind_eq_ok, Rows.collect_filter_eq_ok,
      Expr.withoutSubqueries_eq_self hplain]
    constructor
    · rintro ⟨formula, hformula, read, hread, hdecides, rfl⟩
      refine ⟨read, hread, ⟨formula, hformula⟩, fun row hrow => ?_, ?_⟩
      · rw [hvalue hformula]
        exact hdecides row hrow
      · exact List.filter_congr fun row _ => hverdict hformula row
    · rintro ⟨read, hread, ⟨formula, hformula⟩, htruth, rfl⟩
      refine ⟨formula, hformula, read, hread, fun row hrow => ?_, ?_⟩
      · have hrow := htruth row hrow
        rwa [hvalue hformula] at hrow
      · exact (List.filter_congr fun row _ => hverdict hformula row).symm

/-- What stands around a condition that has a truth value, or NULL, for
every row selects by what it makes of it. -/
theorem Select.collect_filtered_unary (hslots : source.scope.layout.slots = []) {op : UnaryOp}
    {p : Expr} {selected : List Row} {keep : Option Bool}
    (hop : ∀ r, Result.HasTruth r → Result.HasTruth (r >>= op.apply) ∧
      (Result.truth? (r >>= op.apply) = some true ↔ Result.truth? r = keep))
    (h : (do (← filtered (Expr.condition? context (some p)) source).rows.collect) = .ok selected)
    {read : List Row} (hread : source.rows.collect = .ok read) :
    (do (← filtered (Expr.condition? context (some (.unary op p))) source).rows.collect) =
      .ok (read.filter fun row => p.verdict context source.scope row = keep) := by
  obtain ⟨_, hsame, ⟨formula, hformula⟩, htruth, -⟩ := collect_filtered_eq_ok.mp h
  cases hread.symm.trans hsame
  refine collect_filtered_eq_ok.mpr ⟨read, hread, ⟨.unary op formula, ?_⟩, fun row hrow => ?_, ?_⟩
  · rw [Expr.withoutSubqueries, Scope.resolve_unary hslots, hformula]
    rfl
  · rw [Expr.valueFor_unary hslots]
    exact (hop _ (htruth row hrow)).1
  · refine List.filter_congr fun row hrow => decide_eq_decide.mpr ?_
    rw [Expr.verdict, Expr.verdict, Expr.valueFor_unary hslots]
    exact (hop _ (htruth row hrow)).2.symm

-- ============================================================== SELECT

/-- `SELECT * FROM source joins`, with a WHERE clause or without, and with
named queries to read from. -/
def Select.allFrom (ctes : List Cte) (source : Option TableRef) (joins : List Join)
    (predicate : Option Expr) : Select where
  ctes
  distinct := false
  columns := [⟨.all, none⟩]
  source
  joins
  predicate
  groupBy := []
  having := none
  unions := []
  orderBy := []
  offset := none
  limit := none
  queryHints := []

/-- The result of such a query has the columns and the rows of the FROM
clause, of which WHERE leaves some. -/
theorem Select.readAll_allFrom (version : DialectVersion) {store : Store} (hvalid : store.Valid)
    (ctes : List Cte) (table : Option TableRef) (joins : List Join) (predicate : Option Expr) :
    (allFrom ctes table joins predicate).readAll version store = do
      let relations ← ctes.foldlM (Cte.evaluate version store) []
      let source ← Source.ofClause { store, ctes := relations } table joins
      let passed ← filtered (Expr.condition? { store, ctes := relations } predicate) source
      return (source.scope.labels.map Label.columnName, ← passed.rows.collect) := by
  rw [readAll_eq, evaluate, bind_assoc]
  refine Result.bind_congr_ok fun relations hrelations => ?_
  have hanswer : Select.answer { store, ctes := relations }
      { allFrom ctes table joins predicate with ctes := [] } =
        Source.ofClause { store, ctes := relations } table joins >>= fun source =>
          filtered (Expr.condition? { store, ctes := relations } predicate) source >>=
            (allWhere "" none).output [] :=
    answer_single rfl rfl rfl rfl
  rw [hanswer, bind_assoc]
  refine Result.bind_congr_ok fun source hsource => ?_
  rw [bind_assoc]
  refine Result.bind_congr_ok fun passed hpassed => ?_
  have hregular := filtered_regular
    (Source.ofClause_regular (Cte.evaluateList_regular hvalid hrelations) hsource) hpassed
  have hcollect : (passed.rows.project ((List.range passed.scope.width).map .column)).collect =
      passed.rows.collect := by
    refine Rows.collect_project_of_self fun row hrow => ?_
    rw [← hregular row hrow]
    exact Formula.evalList_columns row
  rw [output_allWhere, Result.ok_bind, hcollect, filtered_scope hpassed]

/-- WHERE divides rows in three. Where `WHERE p` can be read to the end, so
can the same query without WHERE, with `WHERE NOT p` and with `WHERE p IS
NULL`; and there is a verdict on each row of the query without WHERE,
true, false or unknown, such that each of the three gives the rows of one
verdict, all of them and in their order. -/
theorem Select.where_partitions (version : DialectVersion) {store : Store} (hvalid : store.Valid)
    (ctes : List Cte) (table : Option TableRef) (joins : List Join) (p : Expr)
    {columns : List String} {selected : List Row}
    (h : (allFrom ctes table joins (some p)).readAll version store = .ok (columns, selected)) :
    ∃ (rows : List Row) (verdict : Row → Option Bool),
      (allFrom ctes table joins none).readAll version store = .ok (columns, rows) ∧
      selected = rows.filter (verdict · = some true) ∧
      (allFrom ctes table joins (some (.unary .not p))).readAll version store =
        .ok (columns, rows.filter (verdict · = some false)) ∧
      (allFrom ctes table joins (some (.unary .isNull p))).readAll version store =
        .ok (columns, rows.filter (verdict · = none)) := by
  rw [readAll_allFrom version hvalid] at h
  obtain ⟨relations, hrelations, h⟩ := Result.bind_eq_ok.mp h
  obtain ⟨source, hsource, h⟩ := Result.bind_eq_ok.mp h
  obtain ⟨passed, hpassed, h⟩ := Result.bind_eq_ok.mp h
  obtain ⟨_, hselected, h⟩ := Result.bind_eq_ok.mp h
  cases h
  have hall : (do (← filtered (Expr.condition? { store, ctes := relations } (some p))
      source).rows.collect) = .ok selected := by
    rw [hpassed]
    exact hselected
  obtain ⟨rows, hrows, -, -, hverdict⟩ := collect_filtered_eq_ok.mp hall
  have hslots := (Source.ofClause_plain hsource).2
  have hnot := collect_filtered_unary hslots (fun _ => Result.HasTruth.not) hall hrows
  have hnull := collect_filtered_unary hslots (fun _ => Result.HasTruth.isNull) hall hrows
  have hread {predicate : Option Expr} {read : List Row}
      (hfiltered : (do (← filtered (Expr.condition? { store, ctes := relations } predicate)
        source).rows.collect) = .ok read) :
      (allFrom ctes table joins predicate).readAll version store =
        .ok (source.scope.labels.map Label.columnName, read) := by
    obtain ⟨passed, hpassed, hcollect⟩ := Result.bind_eq_ok.mp hfiltered
    rw [readAll_allFrom version hvalid, hrelations, Result.ok_bind, hsource, Result.ok_bind,
      hpassed, Result.ok_bind, hcollect]
    rfl
  exact ⟨rows, p.verdict { store, ctes := relations } source.scope, hread hrows, hverdict,
    hread hnot, hread hnull⟩

namespace Where

/-- `Pages a LEFT JOIN Pages b ON a.link = b.id` -/
def linkJoin : List Join := [
  ⟨.left, ⟨"Pages", some "b", []⟩,
    some (.binary .equal (.column (some "a") "link") (.column (some "b") "id"))⟩]

/-- `b.id IN (SELECT id FROM Pages WHERE link = 2)` -/
def linksToFirst : Expr :=
  .inQuery (.column (some "b") "id")
    { Select.allWhere "Pages"
        (some (.binary .equal (.column none "link") (.literal (.integer 2)))) with
      columns := [⟨.column none "id", none⟩] }

/-- Of the page without a link nothing is known. -/
theorem linkJoin_partitioned :
    (Select.allFrom [] (some ⟨"Pages", some "a", []⟩) linkJoin (some linksToFirst)).readAll
        ⟨.sqLite, 3⟩ ⟨[⟨"pages", pages⟩]⟩ =
      .ok (["id", "link", "id", "link"], [[.integer 2, .integer 1, .integer 1, .integer 2]]) ∧
    ∃ verdict : Row → Option Bool,
      (Select.allFrom [] (some ⟨"Pages", some "a", []⟩) linkJoin
          (some (.unary .not linksToFirst))).readAll ⟨.sqLite, 3⟩ ⟨[⟨"pages", pages⟩]⟩ =
        .ok (["id", "link", "id", "link"],
          [[.integer 1, .integer 2, .integer 2, .integer 1],
            [.integer 2, .integer 1, .integer 1, .integer 2],
            [.integer 3, .null, .null, .null]].filter (verdict · = some false)) ∧
      (Select.allFrom [] (some ⟨"Pages", some "a", []⟩) linkJoin
          (some (.unary .isNull linksToFirst))).readAll ⟨.sqLite, 3⟩ ⟨[⟨"pages", pages⟩]⟩ =
        .ok (["id", "link", "id", "link"],
          [[.integer 1, .integer 2, .integer 2, .integer 1],
            [.integer 2, .integer 1, .integer 1, .integer 2],
            [.integer 3, .null, .null, .null]].filter (verdict · = none)) := by
  have hselected : (Select.allFrom [] (some ⟨"Pages", some "a", []⟩) linkJoin
      (some linksToFirst)).readAll ⟨.sqLite, 3⟩ ⟨[⟨"pages", pages⟩]⟩ =
        .ok (["id", "link", "id", "link"],
          [[.integer 2, .integer 1, .integer 1, .integer 2]]) := by rfl
  obtain ⟨rows, verdict, hrows, -, hnot, hnull⟩ :=
    Select.where_partitions ⟨.sqLite, 3⟩ pages_valid [] (some ⟨"Pages", some "a", []⟩) linkJoin
      linksToFirst hselected
  have hall : (Select.allFrom [] (some ⟨"Pages", some "a", []⟩) linkJoin none).readAll
      ⟨.sqLite, 3⟩ ⟨[⟨"pages", pages⟩]⟩ = .ok (["id", "link", "id", "link"],
        [[.integer 1, .integer 2, .integer 2, .integer 1],
          [.integer 2, .integer 1, .integer 1, .integer 2],
          [.integer 3, .null, .null, .null]]) := by rfl
  cases hall.symm.trans hrows
  exact ⟨hselected, verdict, hnot, hnull⟩

end Where

end DialectDb
