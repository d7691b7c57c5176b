/-
What a query over a chain of joins delivers. A query that neither groups
nor sorts nor removes duplicates gives its rows one by one, as they are
made, so failures of join predicates, of WHERE and of the select list
show when their rows are reached. The rows before the first failure are
those that nested loops from left to right make before it, except for
the rows that still wait then (see `Turns`): a row that a LEFT join pads
waits for the next row on its left, and if there is a failure in the
place of that, it is lost.
-/
import DialectDb.Dialect.Catalog
import DialectDb.Proofs.Answers
import DialectDb.Proofs.ScopedRows
import DialectDb.Proofs.Turns

namespace DialectDb

-- ============================================================== reading

namespace Rows

private theorem readAfter_eq (before given : List Row) (rows : Rows) {behind : List (Result Row)}
    {failure : Option Error} (hbehind : ∀ rows before, rows.toList = behind →
      readAfter before rows = (before.reverse, failure))
    (h : rows.toList = given.map .ok ++ behind) :
    readAfter before rows = (before.reverse ++ given, failure) := by
  induction rows generalizing before given with
  | done =>
      obtain ⟨hgiven, hrest⟩ := List.append_eq_nil_iff.mp h.symm
      rw [List.map_eq_nil_iff.mp hgiven, List.append_nil]
      exact hbehind _ _ (hrest ▸ rfl)
  | wait rest ih => exact ih () before given h
  | next row rest ih =>
      cases given with
      | nil =>
          rw [List.append_nil]
          exact hbehind _ _ h
      | cons first given =>
          obtain ⟨hfirst, hrest⟩ := List.cons_eq_cons.mp h
          subst hfirst
          rw [readAfter, ih () (first :: before) given hrest, List.reverse_cons,
            List.append_assoc, List.singleton_append]

/-- Rows without a failure are all read. -/
theorem read_of_ok {rows : Rows} {given : List Row} (h : rows.toList = given.map .ok) :
    rows.read = (given, none) := by
  have hend (rows : Rows) (before : List Row) (hrows : rows.toList = []) :
      readAfter before rows = (before.reverse, none) := by
    induction rows with
    | done => rfl
    | wait rest ih => exact ih () hrows
    | next row rest => cases hrows
  exact readAfter_eq [] given rows hend (by rw [h, List.append_nil])

/-- Otherwise those before the first failure are. -/
theorem read_of_error {rows : Rows} {given : List Row} {e : Error} {rest : List (Result Row)}
    (h : rows.toList = given.map .ok ++ .error e :: rest) : rows.read = (given, some e) := by
  refine readAfter_eq [] given rows (fun rows before hrows => ?_) h
  induction rows with
  | done => cases hrows
  | wait rest ih => exact ih () hrows
  | next row rest =>
      cases (List.cons_eq_cons.mp hrows).1
      rfl

end Rows

namespace Turn

variable {turns : List Turn} {rows : Rows}

/-- Of the rows that are given out a reader gets the first ones, and no
failure if those are enough or there are no others. -/
theorem Delivers.read_take (h : Delivers rows.toList turns) (n : Nat) :
    (rows.take n).read.1 = (given turns).take n ∧
      ((rows.take n).read.2 = none ↔ n ≤ (given turns).length ∨ turns.all isGiven = true) := by
  have hfirst {behind : List (Result Row)} (hrows : rows.toList = (given turns).map .ok ++ behind)
      (hn : n ≤ (given turns).length) : (rows.take n).read = ((given turns).take n, none) := by
    apply Rows.read_of_ok
    rw [Rows.toList_take, hrows, List.take_append_of_le_length (by simpa using hn), List.map_take]
  rcases h.rows_eq with ⟨hrows, hall⟩ | ⟨e, rest, hrows, hall⟩
  · have hread : (rows.take n).read = ((given turns).take n, none) := by
      apply Rows.read_of_ok
      rw [Rows.toList_take, hrows, List.map_take]
    simp [hread, hall]
  · by_cases hn : n ≤ (given turns).length
    · simp [hfirst hrows hn, hn]
    · have hread : (rows.take n).read = (given turns, some e) := by
        obtain ⟨more, hmore⟩ := Nat.exists_eq_add_of_lt (Nat.lt_of_not_le hn)
        have htaken : (rows.take n).toList =
            (given turns).map .ok ++ .error e :: rest.take more := by
          rw [Rows.toList_take, hrows, hmore, Nat.add_assoc, List.take_append,
            List.take_of_length_le (by simp)]
          simp
        exact Rows.read_of_error htaken
      rw [hread, List.take_of_length_le (Nat.le_of_not_le hn)]
      simp [hn, hall]

theorem Delivers.read (h : Delivers rows.toList turns) :
    rows.read.1 = given turns ∧ (rows.read.2 = none ↔ turns.all isGiven = true) := by
  rcases h.rows_eq with ⟨hrows, hall⟩ | ⟨e, rest, hrows, hall⟩
  · simp [Rows.read_of_ok hrows, hall]
  · simp [Rows.read_of_error hrows, hall]

/-- A computation that serves turns is followed by one that serves what
becomes of them. -/
theorem Serves.bind {α β : Type} {before : α → Rows} {after : β → Rows} {x : Result α}
    {f : α → Result β} {turns turns' : List Turn} (hx : Serves before x turns)
    (hblocked : Blocked turns → Blocked turns')
    (hf : ∀ a, x = .ok a → Delivers (before a).toList turns → Serves after (f a) turns') :
    Serves after (x >>= f) turns' := by
  cases x with
  | error e => exact hblocked hx
  | ok a => exact hf a rfl hx

end Turn

-- ================================================================ plans

/-- A join that is no RIGHT JOIN, with its names resolved. -/
def Level.ofJoin (kind : JoinKind) (relation : Relation) (predicate : Option Formula) : Level where
  joining :=
    { predicate, padding := if kind = .left then some relation.columns.length else none,
      flipped := false }
  inner := relation.rows

theorem Source.joinRows_level (source : Source) {kind : JoinKind} (h : kind ≠ .right)
    (relation : Relation) (predicate : Option Formula) :
    source.joinRows kind relation predicate =
      let level := Level.ofJoin kind relation predicate
      level.joining.rows level.inner source.rows := by
  cases kind with
  | right => exact absurd rfl h
  | _ => rfl

/-- The joins of a FROM clause with their names resolved, and the scope
behind them. -/
def Source.levels (context : Context) : Scope → List Join → Result (Scope × List Level)
  | scope, [] => .ok (scope, [])
  | scope, j :: rest => do
    let relation ← context.relation j.table.name
    let merged ← scope.merge (Scope.ofColumns j.table.label relation.columns)
    let predicate ← j.predicate.mapM merged.resolve
    let (final, levels) ← levels context merged rest
    return (final, Level.ofJoin j.kind relation predicate :: levels)

/-- A query with its names resolved: the rows of its first table, its
joins, what WHERE asks of a joined row, and what the select list makes of
it. -/
structure Plan where
  start : List Row
  levels : List Level
  condition : Option Formula
  formulas : List Formula

namespace Plan

/-- What becomes of a joined row. -/
def result (p : Plan) (row : Result Row) : Option (Result Row) :=
  (p.condition.elim (some row) (Rows.passed · row)).map
    (· >>= fun row => Formula.evalList row p.formulas)

/-- The rows and failures of the query in the order of nested loops from
left to right. -/
def rows (p : Plan) : List (Result Row) :=
  (p.start.flatMap (nestedLoops p.levels)).filterMap p.result

/-- The same with what waits marked. -/
def turns (p : Plan) : List Turn :=
  Turn.through p.result (Level.allTurns p.levels (p.start.map (⟨.ok ·, true⟩)))

/-- The rows that are given out before the first failure. -/
def given (p : Plan) : List Row :=
  Turn.given p.turns

/-- No row before the first failure waits for it. -/
def IsClear (p : Plan) : Prop :=
  ∀ turn ∈ p.turns.takeWhile (·.row.isOk), turn.clear = true

theorem result_error (p : Plan) (e : Error) : p.result (.error e) = some (.error e) := by
  cases h : p.condition <;> simp [result, h, Rows.passed]

theorem rows_turns (p : Plan) : p.turns.map Turn.row = p.rows := by
  have hstart : (p.start.map fun row => (⟨.ok row, true⟩ : Turn)).map Turn.row =
      p.start.map .ok := by
    rw [List.map_map]
    rfl
  have hthrough (turns : List Turn) :
      (Turn.through p.result turns).map Turn.row = (turns.map Turn.row).filterMap p.result := by
    rw [Turn.through, List.map_filterMap, List.filterMap_map]
    refine List.filterMap_congr fun turn _ => ?_
    cases h : p.result turn.row <;> simp [h]
  rw [turns, hthrough, Level.rows_allTurns, hstart, rows, List.flatMap_map]
  rfl

theorem exists_error (p : Plan) (h : Turn.Blocked p.turns) : ∃ e, .error e ∈ p.rows := by
  rw [← p.rows_turns]
  exact h.exists_error

/-- If at most the first join is a LEFT JOIN, then no row waits. -/
theorem isClear_of_padding (p : Plan)
    (h : ∀ level ∈ p.levels.tail, level.joining.padding = none) : p.IsClear := by
  have hturns : ∀ turn ∈ Level.allTurns p.levels (p.start.map (⟨.ok ·, true⟩)),
      turn.clear = true := by
    cases hlevels : p.levels with
    | nil =>
        intro turn hturn
        obtain ⟨row, -, rfl⟩ := List.mem_map.mp hturn
        rfl
    | cons first levels =>
        rw [hlevels] at h
        exact first.allTurns_clear h p.start
  intro turn hturn
  obtain ⟨joined, hjoined, hmade⟩ := List.mem_filterMap.mp ((List.takeWhile_subset _) hturn)
  obtain ⟨result, -, rfl⟩ := Option.map_eq_some_iff.mp hmade
  exact hturns joined hjoined

end Plan

-- ============================================================== queries

namespace Select

/-- A query over inner, cross and left joins that gives its rows one by
one. -/
structure Streams (q : Select) : Prop where
  joins : ∀ j ∈ q.joins, j.kind ≠ .right
  predicate : ∀ e ∈ q.predicate, e.containsSubquery = false
  ungrouped : q.isGrouped [] = false
  distinct : q.distinct = false
  unions : q.unions = []
  orderBy : q.orderBy = []
  offset : q.offset = none

/-- A query with its names resolved. -/
def plan (q : Select) (context : Context) : Result Plan := do
  let source ← Source.first context q.source
  let start ← source.rows.collect
  let (scope, levels) ← Source.levels context source.scope q.joins
  let condition ← q.predicate.mapM scope.resolve
  let made ← q.columns.mapM (outputColumns scope false)
  return ⟨start, levels, condition, made.flatten.map (·.formula)⟩

/-- What is read of a query that is executed, row by row: the rows before
the first failure, and the failure. -/
def delivered (q : Select) (version : DialectVersion) (store : Store) : List Row × Option Error :=
  match (((Statement.select q).execute version).perform store).1 >>= Outcome.query with
  | .ok answer => answer.rows.read
  | .error e => ([], some e)

end Select

open Turn

/-- The joins of a FROM clause serve the turns at all of them, and leave
the scope in which the rest is resolved. -/
theorem Source.joins_serve {context : Context} {joins : List Join}
    (hkinds : ∀ j ∈ joins, j.kind ≠ .right) {source : Source} {scope : Scope}
    {resolved : List Level}
    (hlevels : Source.levels context source.scope joins = .ok (scope, resolved))
    {turns : List Turn} (h : Delivers source.rows.toList turns) :
    Serves Source.rows (joins.foldlM (join context) source) (Level.allTurns resolved turns) ∧
      ∀ last, joins.foldlM (join context) source = .ok last → last.scope = scope := by
  induction joins generalizing source resolved turns with
  | nil =>
      cases hlevels
      refine ⟨h, fun last hlast => ?_⟩
      cases hlast
      rfl
  | cons j joins ih =>
      obtain ⟨hkind, hkinds⟩ := List.forall_mem_cons.mp hkinds
      obtain ⟨relation, hrelation, hlevels⟩ := Result.bind_eq_ok.mp hlevels
      obtain ⟨merged, hmerge, hlevels⟩ := Result.bind_eq_ok.mp hlevels
      obtain ⟨predicate, hpredicate, hlevels⟩ := Result.bind_eq_ok.mp hlevels
      obtain ⟨⟨final, levels⟩, hrest, hpure⟩ := Result.bind_eq_ok.mp hlevels
      cases hpure
      have hjoin : source.join context j =
          source.joinRows j.kind relation predicate >>= fun rows => .ok ⟨merged, rows⟩ := by
        unfold join
        rw [hrelation, Result.ok_bind, hmerge, Result.ok_bind, hpredicate, Result.ok_bind]
        rfl
      have hserves := h.join (Level.ofJoin j.kind relation predicate)
      rw [← source.joinRows_level hkind relation predicate] at hserves
      rw [List.foldlM_cons, hjoin]
      cases hrows : source.joinRows j.kind relation predicate with
      | error e =>
          rw [hrows] at hserves
          exact ⟨Blocked.allTurns hserves levels, nofun⟩
      | ok rows =>
          rw [hrows] at hserves
          have hdelivers : Delivers rows.toList _ := hserves
          exact @ih hkinds ⟨merged, rows⟩ levels hrest _ hdelivers

namespace Select

open DialectDb.Action

variable {q : Select} {context : Context} {p : Plan}

/-- The select list of such a query is applied row by row, in one go. -/
theorem output_streams (h : q.Streams) {source : Source} {made : List (List OutputColumn)}
    (hmade : q.columns.mapM (outputColumns source.scope false) = .ok made) :
    q.output [] source = .ok ⟨made.flatten.map (·.label.columnName),
      source.rows.project (made.flatten.map (·.formula))⟩ := by
  have hhaving : q.having = none := by
    have hgrouped := h.ungrouped
    simp only [isGrouped, Bool.or_eq_false_iff] at hgrouped
    exact Option.isSome_eq_false_iff.mp hgrouped.1.1.2 |> Option.isNone_iff_eq_none.mp
  have hkept : q.kept source = .ok source.rows := by
    unfold kept
    rw [hhaving]
  unfold output
  rw [hkept, Result.ok_bind, h.ungrouped, hmade]
  simp [orderKeys, orderRows, h.distinct]

/-- So are WHERE and the select list. -/
theorem answerFrom_streams (h : q.Streams) {source : Source} {condition : Option Formula}
    (hcondition : q.predicate.mapM source.scope.resolve = .ok condition)
    {made : List (List OutputColumn)}
    (hmade : q.columns.mapM (outputColumns source.scope false) = .ok made) :
    q.answerFrom (Expr.condition? context q.predicate) [] source =
      .ok ⟨made.flatten.map (·.label.columnName),
        (condition.elim source.rows (Rows.filter · source.rows)).project
          (made.flatten.map (·.formula))⟩ := by
  have hfiltered : filtered (Expr.condition? context q.predicate) source =
      .ok { source with rows := condition.elim source.rows (Rows.filter · source.rows) } := by
    cases hpredicate : q.predicate with
    | none =>
        rw [hpredicate] at hcondition
        cases hcondition
        rfl
    | some e =>
        rw [hpredicate] at hcondition
        obtain ⟨f, hf, rfl⟩ := Result.map_eq_ok.mp hcondition
        have hplain := h.predicate e hpredicate
        have hresolve : source.scope.resolve e = .ok f := hf
        simp [filtered, Expr.condition?, Condition.select, hplain, hresolve]
  unfold answerFrom
  rw [hfiltered, Result.ok_bind, arranged, h.ungrouped]
  exact output_streams h hmade

/-- A query of this kind serves the turns of its plan. -/
theorem coreAnswer_serves (h : q.Streams) (hplan : q.plan context = .ok p) :
    Serves Answer.rows (q.coreAnswer context (Expr.condition? context q.predicate) []) p.turns := by
  obtain ⟨first, hfirst, hplan⟩ := Result.bind_eq_ok.mp hplan
  obtain ⟨start, hstart, hplan⟩ := Result.bind_eq_ok.mp hplan
  obtain ⟨⟨scope, levels⟩, hlevels, hplan⟩ := Result.bind_eq_ok.mp hplan
  obtain ⟨condition, hcondition, hplan⟩ := Result.bind_eq_ok.mp hplan
  obtain ⟨made, hmade, hplan⟩ := Result.bind_eq_ok.mp hplan
  cases hplan
  have hdelivers : Delivers first.rows.toList (start.map (⟨.ok ·, true⟩)) := by
    rw [Rows.collect_eq_ok.mp hstart]
    exact delivers_start start
  obtain ⟨hjoins, hscope⟩ := Source.joins_serve h.joins hlevels hdelivers
  have hclause : Source.ofClause context q.source q.joins =
      q.joins.foldlM (Source.join context) first := by
    unfold Source.ofClause
    rw [hfirst, Result.ok_bind]
  unfold coreAnswer
  rw [hclause]
  refine hjoins.bind (fun hblocked => hblocked.through (Plan.result_error _)) ?_
  intro source hsource hdelivers
  obtain rfl := hscope source hsource
  rw [answerFrom_streams h hcondition hmade]
  show Delivers (Rows.toList _) _
  have hrows : ((condition.elim source.rows (Rows.filter · source.rows)).project
      (made.flatten.map (·.formula))).toList =
      source.rows.toList.filterMap
        (Plan.result ⟨start, levels, condition, made.flatten.map (·.formula)⟩) := by
    rw [Rows.toList_project]
    cases condition with
    | none => exact (congrFun List.filterMap_eq_map' _).symm
    | some f =>
        rw [Option.elim_some, Rows.toList_filter, List.map_filterMap]
        rfl
  rw [hrows]
  exact hdelivers.through (Plan.result_error _)

-- ============================================================ delivered

theorem delivered_eq (q : Select) (version : DialectVersion) (store : Store) :
    q.delivered version store =
      match q.evaluate version store with
      | .ok answer => answer.rows.read
      | .error e => ([], some e) := by
  unfold delivered Statement.execute
  rw [perform_get_bind, perform_lift_bind]
  cases q.evaluate version store <;> rfl

/-- With its row limit, such a query is what its core gives, cut off. -/
theorem evaluate_streams (h : q.Streams) {version : DialectVersion} {store : Store}
    {ctes : List (String × Relation)}
    (hctes : q.ctes.foldlM (Cte.evaluate version store) [] = .ok ctes) {limit : Option Nat}
    (hlimit : rowCount .limit q.limit = .ok limit) :
    q.evaluate version store =
      q.coreAnswer { store, ctes } (Expr.condition? { store, ctes } q.predicate) [] >>=
        fun answer => .ok { answer with rows := limit.elim answer.rows answer.rows.take } := by
  have hoffset : rowCount .offset q.offset = .ok none := by
    rw [h.offset]
    rfl
  have hcore (q' : Select) (hq' : q' = { q with ctes := [] }) :
      q'.answer { store, ctes } = q.coreAnswer { store, ctes }
        (Expr.condition? { store, ctes } q.predicate) [] >>= fun answer =>
          .ok { answer with rows := limit.elim answer.rows answer.rows.take } := by
    have hself : coreAnswer { q with ctes := [], unions := [], orderBy := [] } { store, ctes }
        (Expr.condition? { store, ctes } q.predicate) [] =
        q.coreAnswer { store, ctes } (Expr.condition? { store, ctes } q.predicate) [] := rfl
    subst hq'
    rw [answer_eq]
    simp only [assemble, h.unions, h.orderBy, hoffset, hlimit, UnionBranch.answers, List.isEmpty_nil,
      Bool.not_true, hself]
    cases q.coreAnswer { store, ctes } (Expr.condition? { store, ctes } q.predicate) [] with
    | error e => rfl
    | ok answer => cases limit <;> simp [Rows.drop_zero]
  unfold evaluate
  rw [hctes, Result.ok_bind]
  exact hcore _ rfl

theorem delivered_streams (h : q.Streams) {version : DialectVersion} {store : Store}
    {ctes : List (String × Relation)}
    (hctes : q.ctes.foldlM (Cte.evaluate version store) [] = .ok ctes) {limit : Option Nat}
    (hlimit : rowCount .limit q.limit = .ok limit) :
    q.delivered version store =
      match q.coreAnswer { store, ctes } (Expr.condition? { store, ctes } q.predicate) [] with
      | .ok answer => (limit.elim answer.rows answer.rows.take).read
      | .error e => ([], some e) := by
  rw [delivered_eq, evaluate_streams h hctes hlimit]
  cases q.coreAnswer { store, ctes } (Expr.condition? { store, ctes } q.predicate) [] <;> rfl

/-- What a query over inner, cross and left joins delivers before its
first failure are rows that nested loops from left to right make before
theirs, in their order and from the first on; all of them iff none waits
for the row that fails. It ends without a failure iff the loops do. With
LIMIT it gives as many of these rows as there are up to the limit, and
succeeds iff there are enough or nothing fails. -/
theorem delivered_of_plan (version : DialectVersion) (store : Store) (h : q.Streams)
    {ctes : List (String × Relation)}
    (hctes : q.ctes.foldlM (Cte.evaluate version store) [] = .ok ctes)
    (hplan : q.plan { store, ctes } = .ok p) :
    p.given <+: rowsBefore p.rows ∧
    (p.given = rowsBefore p.rows ↔ p.IsClear) ∧
    (q.limit = none →
      (q.delivered version store).1 = p.given ∧
      ((q.delivered version store).2 = none ↔ ∀ e, .error e ∉ p.rows)) ∧
    ∀ n, rowCount .limit q.limit = .ok (some n) → 0 < n →
      (q.delivered version store).1 = p.given.take n ∧
      ((q.delivered version store).2 = none ↔
        n ≤ p.given.length ∨ ∀ e, .error e ∉ p.rows) := by
  have hserves := coreAnswer_serves h hplan
  have hgiven := given_prefix p.turns
  have hclear := given_eq_iff p.turns
  rw [p.rows_turns] at hgiven hclear
  refine ⟨hgiven, hclear, ?_, ?_⟩
  · intro hlimit
    have hnone : rowCount .limit q.limit = .ok none := by
      rw [hlimit]
      rfl
    rw [delivered_streams h hctes hnone]
    generalize q.coreAnswer { store, ctes } _ [] = core at hserves
    cases core with
    | error e =>
        have hblocked : Blocked p.turns := hserves
        obtain ⟨fault, hfault⟩ := p.exists_error hblocked
        exact ⟨hblocked.given_eq_nil.symm, nofun, fun hno => absurd hfault (hno fault)⟩
    | ok answer =>
        have hdelivers : Delivers answer.rows.toList p.turns := hserves
        obtain ⟨hrows, hend⟩ := hdelivers.read
        rw [hdelivers.all_iff, p.rows_turns] at hend
        exact ⟨hrows, hend⟩
  · intro n hlimit hn
    rw [delivered_streams h hctes hlimit]
    generalize q.coreAnswer { store, ctes } _ [] = core at hserves
    cases core with
    | error e =>
        have hblocked : Blocked p.turns := hserves
        have hnil : p.given = [] := hblocked.given_eq_nil
        obtain ⟨fault, hfault⟩ := p.exists_error hblocked
        rw [hnil]
        refine ⟨List.take_nil.symm, nofun, fun hdone => ?_⟩
        rcases hdone with hlength | hno
        · exact absurd hlength (Nat.not_le.mpr hn)
        · exact absurd hfault (hno fault)
    | ok answer =>
        have hdelivers : Delivers answer.rows.toList p.turns := hserves
        obtain ⟨hrows, hend⟩ := hdelivers.read_take n
        rw [hdelivers.all_iff, p.rows_turns] at hend
        exact ⟨hrows, hend⟩

end Select

namespace NestedLoops

def twoTasks : Store where
  entries :=
    [⟨"tasks", ⟨"tasks", [⟨"id", .integer, true, false, none, false⟩]⟩,
      [[.integer 1], [.integer 2]]⟩]

/-- `LEFT JOIN tasks b ON dividend / (2 - a.id) = b.id` -/
def quotientJoin (dividend : Int64) : Join where
  kind := .left
  table := ⟨"tasks", some "b", []⟩
  predicate := some <| .binary .equal
    (.binary .divide (.literal (.integer dividend))
      (.binary .subtract (.literal (.integer 2)) (.column (some "a") "id")))
    (.column (some "b") "id")

/-- `SELECT a.id FROM tasks a <joins> LIMIT 1` -/
def firstTask (joins : List Join) : Select where
  ctes := []
  distinct := false
  columns := [⟨.column (some "a") "id", none⟩]
  source := some ⟨"tasks", some "a", []⟩
  joins := joins
  predicate := none
  groupBy := []
  having := none
  unions := []
  orderBy := []
  offset := none
  limit := some (.literal (.integer 1))
  queryHints := []

/-- Without a match the first task is padded. The second one is there by
then, so the failure that it makes is behind the padded row. -/
theorem firstTask_padded :
    (firstTask [quotientJoin 3]).delivered ⟨.postgreSql, 17⟩ twoTasks = ([[.integer 1]], none) := by
  have hstreams : (firstTask [quotientJoin 3]).Streams :=
    ⟨by decide, nofun, rfl, rfl, rfl, rfl, rfl⟩
  obtain ⟨-, -, -, hlimit⟩ :=
    Select.delivered_of_plan ⟨.postgreSql, 17⟩ twoTasks hstreams (@rfl _ (Except.ok [])) rfl
  obtain ⟨hrows, hend⟩ := hlimit 1 rfl Nat.one_pos
  exact Prod.ext hrows (hend.mpr (.inl (by decide)))

/-- `LEFT JOIN tasks b ON 1 / (2 - a.id) = b.id LEFT JOIN tasks c ON FALSE` -/
def losingJoins : List Join :=
  [quotientJoin 1, ⟨.left, ⟨"tasks", some "c", []⟩, some (.literal (.boolean false))⟩]

/-- A second LEFT JOIN pads the first task, and then fetches the failure
of the second one before it gives out the padded row. The loops make that
row before the failure. -/
theorem firstTask_lost :
    (∃ p, (firstTask losingJoins).plan { store := twoTasks } = .ok p ∧
      rowsBefore p.rows = [[.integer 1]]) ∧
    (firstTask losingJoins).delivered ⟨.postgreSql, 17⟩ twoTasks =
      ([], some (.invalid .divisionByZero)) :=
  ⟨⟨_, rfl, rfl⟩, rfl⟩

end NestedLoops

end DialectDb
