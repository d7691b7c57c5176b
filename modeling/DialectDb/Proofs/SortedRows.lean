/-
ORDER BY. The rows of a sorted query are those of the query without
ORDER BY, in the stable order of their sort keys. An ORDER BY without
aggregates changes nothing before it, neither the rows that the
expressions are evaluated on nor the columns; it comes after grouping
and before DISTINCT.
-/
import DialectDb.Proofs.SortKeys
import DialectDb.Proofs.Unions
import DialectDb.Proofs.Widths

namespace DialectDb

-- ============================================================== reading

/-- Sorted rows without their hidden columns. -/
theorem collect_orderRows {keys : List OrderKey} {width : Nat} {rows : Rows}
    (hwidth : keys = [] → rows.HaveWidth width) :
    (orderRows keys width rows >>= Rows.collect) =
      (fun read => (sortRows keys read).map (·.take width)) <$> rows.collect := by
  unfold orderRows
  cases keys with
  | nil =>
      show rows.collect = _
      cases hread : rows.collect with
      | error e => rfl
      | ok read =>
          have htake : read.map (·.take width) = read := by
            refine (List.map_congr_left fun row hrow => ?_).trans (List.map_id read)
            exact List.take_of_length_le (Nat.le_of_eq ((hwidth rfl).collect hread row hrow))
          show Except.ok read = .ok ((sortRows [] read).map (·.take width))
          rw [Select.sortRows_nil, htake]
  | cons key keys =>
      cases rows.collect with
      | error e => rfl
      | ok read =>
          show (Rows.ofList _).collect = _
          rw [Rows.collect_ofList]
          rfl

/-- The columns and all rows of an answer. -/
def Answer.read (answer : Answer) : Result (List String × List Row) := do
  return (answer.columns, ← answer.rows.collect)

namespace Select

variable {q : Select} {context : Context} {source : Source} {orderBy : List SortKey}
  {names : List String} {rows : List Row}

/-- The columns of the result. -/
def made (q : Select) (source : Source) : Result (List OutputColumn) := do
  return (← q.columns.mapM (outputColumns source.scope (q.isGrouped []))).flatten

/-- DISTINCT keeps the first of equal rows. -/
theorem read_distinct (names : List String) (rows : Rows) :
    ((if q.distinct then do return ⟨names, Rows.ofList (Rows.distinct (← rows.collect))⟩
        else return ⟨names, rows⟩) >>= Answer.read) =
      (fun read => (names, if q.distinct then read.eraseDups else read)) <$> rows.collect := by
  cases q.distinct with
  | false => rfl
  | true =>
      cases rows.collect with
      | error e => rfl
      | ok read =>
          show Answer.read ⟨names, Rows.ofList (Rows.distinct read)⟩ = .ok (names, read.eraseDups)
          rw [Answer.read, Rows.collect_ofList, Rows.distinct_eq]
          rfl

/-- What a query gives for the rows that its expressions are evaluated
on. -/
theorem output_read (hgrouped : q.isGrouped orderBy = q.isGrouped []) :
    (q.output orderBy source >>= Answer.read) = do
      let kept ← q.kept source
      let columns ← q.made source
      let (keys, hidden) ← orderKeys source.scope (columns.map (·.aliasName)) orderBy []
      let fulls ← (kept.project (columns.map (·.formula) ++ hidden)).collect
      let sorted := (sortRows keys fulls).map (·.take columns.length)
      return (columns.map (·.label.columnName),
        if q.distinct then sorted.eraseDups else sorted) := by
  unfold output made
  rw [hgrouped]
  simp only [bind_assoc, pure_bind]
  refine bind_congr fun kept => bind_congr fun made => ?_
  generalize made.flatten = columns
  refine Result.bind_congr_ok fun ⟨keys, hidden⟩ hkeys => ?_
  have hwidth : keys = [] → (kept.project (columns.map (·.formula) ++ hidden)).HaveWidth
      columns.length := by
    rintro rfl
    rw [orderKeys_empty hkeys, List.append_nil, ← List.length_map (·.formula)]
    exact kept.haveWidth_project (columns.map (·.formula))
  dsimp only
  simp only [read_distinct, ← map_bind, collect_orderRows hwidth]
  cases (kept.project (columns.map (·.formula) ++ hidden)).collect with
  | error e => rfl
  | ok fulls => rfl

/-- The columns and all rows of a query. -/
def readIn (q : Select) (context : Context) : Result (List String × List Row) :=
  q.answer context >>= Answer.read

/-- The query without its ORDER BY and DISTINCT. -/
def unordered (q : Select) : Select :=
  { q with orderBy := [], distinct := false }

/-- The rows that the selected expressions are evaluated on: those of the
FROM clause that pass WHERE, or groups of them that pass HAVING. -/
def ground (q : Select) (context : Context) : Result Source := do
  let source ← Source.ofClause context q.source q.joins
  let source ← filtered (Expr.condition? context q.predicate) source
  let source ← q.arranged [] source
  return { source with rows := ← q.kept source }

-- ============================================================= grouping

theorem aggregateCalls_append {es others : List Expr}
    (h : ∀ e ∈ others, e.containsAggregate = false) :
    aggregateCalls (es ++ others) = aggregateCalls es := by
  have hnone : (others.flatMap Expr.nodes).filter Expr.isAggregate = [] := by
    refine List.filter_eq_nil_iff.mpr fun node hnode haggregate => ?_
    obtain ⟨e, he, hnode⟩ := List.mem_flatMap.mp hnode
    exact Bool.false_ne_true ((h e he).symm.trans (List.any_eq_true.mpr ⟨node, hnode, haggregate⟩))
  unfold aggregateCalls
  rw [List.flatMap_append, List.filter_append, hnone, List.append_nil]

/-- Sort keys without aggregates do not group the rows. -/
theorem isGrouped_of_plain (h : ∀ key ∈ orderBy, key.expr.containsAggregate = false) :
    q.isGrouped orderBy = q.isGrouped [] := by
  have hnone : orderBy.any (·.expr.containsAggregate) = false :=
    List.any_eq_false.mpr fun key hkey => Bool.eq_false_iff.mp (h key hkey)
  unfold isGrouped
  rw [hnone]
  rfl

/-- Nor do they change the groups. -/
theorem arranged_of_plain (h : ∀ key ∈ orderBy, key.expr.containsAggregate = false) :
    q.arranged orderBy source = q.arranged [] source := by
  have hcalls : aggregateCalls (q.groupedExprs orderBy) = aggregateCalls (q.groupedExprs []) := by
    unfold groupedExprs
    rw [List.map_nil, List.append_nil, aggregateCalls_append]
    simpa using h
  unfold arranged Source.grouped Scope.grouping
  rw [isGrouped_of_plain h, hcalls]

theorem readIn_eq (hctes : q.ctes = []) (hunions : q.unions = []) (hoffset : q.offset = none)
    (hlimit : q.limit = none) (hplain : ∀ key ∈ q.orderBy, key.expr.containsAggregate = false) :
    q.readIn context = do
      let source ← q.ground context
      let columns ← q.made source
      let (keys, hidden) ← orderKeys source.scope (columns.map (·.aliasName)) q.orderBy []
      let fulls ← (source.rows.project (columns.map (·.formula) ++ hidden)).collect
      let sorted := (sortRows keys fulls).map (·.take columns.length)
      return (columns.map (·.label.columnName),
        if q.distinct then sorted.eraseDups else sorted) := by
  unfold readIn ground
  rw [answer_single hctes hunions hoffset hlimit]
  unfold coreAnswer answerFrom
  simp only [bind_assoc, arranged_of_plain hplain, output_read (isGrouped_of_plain hplain)]
  rfl

-- ============================================================== sorting

/-- How the rows of a result are sorted. There is an item for each of
them, made from the row that it is evaluated on, with the values of its
sort keys. -/
structure SortedBy (q : Select) (context : Context) (source : Source)
    (columns : List OutputColumn) (inputs : List Row) (sources : List KeySource)
    (items : List (List Value × Row)) (sorted : List Row) : Prop where
  ground : q.ground context = .ok source
  made : q.made source = .ok columns
  read : source.rows.collect = .ok inputs
  refers : KeySource.RefersAll source.scope (columns.map (·.aliasName)) q.orderBy sources
  evaluated : List.Forall₂ (fun input (item : List Value × Row) =>
    Formula.evalList input (columns.map (·.formula)) = .ok item.2 ∧
      KeySource.GivesAll input item.2 sources item.1) inputs items
  stable : StableSort (compareTuples (q.orderBy.map (·.direction))) items sorted

/-- Rows of a result are sorted by the sort keys of a query. -/
def Sorts (q : Select) (context : Context) (rows sorted : List Row) : Prop :=
  ∃ source columns inputs sources items,
    q.SortedBy context source columns inputs sources items sorted ∧ rows = items.map (·.2)

variable {plain sorted : List Row}

theorem unordered_readIn (hctes : q.ctes = []) (hunions : q.unions = [])
    (hoffset : q.offset = none) (hlimit : q.limit = none) :
    q.unordered.readIn context = do
      let source ← q.ground context
      let columns ← q.made source
      let rows ← (source.rows.project (columns.map (·.formula))).collect
      return (columns.map (·.label.columnName), rows) := by
  have hplain : ∀ key ∈ q.unordered.orderBy, key.expr.containsAggregate = false :=
    fun key hkey => absurd hkey List.not_mem_nil
  rw [readIn_eq (q := q.unordered) hctes hunions hoffset hlimit hplain]
  refine bind_congr fun source => bind_congr fun columns => ?_
  show ((source.rows.project (columns.map (·.formula) ++ [])).collect >>= _) = _
  rw [List.append_nil]
  refine Result.bind_congr_ok fun read hread => ?_
  have hwidth := (source.rows.haveWidth_project (columns.map (·.formula))).collect hread
  have htake : read.map (·.take columns.length) = read := by
    refine (List.map_congr_left fun row hrow => ?_).trans (List.map_id read)
    rw [← List.length_map (·.formula), ← hwidth row hrow]
    exact List.take_length
  show Except.ok (_, (sortRows [] read).map (·.take columns.length)) = _
  rw [sortRows_nil, htake]
  rfl

/-- A sorted query can be read iff it can be without ORDER BY and there
are values of the sort keys. -/
theorem readIn_eq_ok_iff (hctes : q.ctes = []) (hunions : q.unions = [])
    (hoffset : q.offset = none) (hlimit : q.limit = none)
    (hplain : ∀ key ∈ q.orderBy, key.expr.containsAggregate = false) :
    q.readIn context = .ok (names, rows) ↔
      ∃ plain sorted, q.unordered.readIn context = .ok (names, plain) ∧
        q.Sorts context plain sorted ∧
        rows = if q.distinct then sorted.eraseDups else sorted := by
  rw [readIn_eq hctes hunions hoffset hlimit hplain,
    unordered_readIn hctes hunions hoffset hlimit]
  simp only [Result.bind_eq_ok, Result.pure_eq_ok, Prod.mk.injEq]
  constructor
  · rintro ⟨source, hground, columns, hmade, ⟨keys, hidden⟩, hkeys, fulls, hfulls, rfl, rfl⟩
    obtain ⟨sources, hrefers⟩ := KeySource.exists_refersAll hkeys
    obtain ⟨keys', hkeys', hplaced, hdirections⟩ := hrefers.orderKeys []
    cases hkeys.symm.trans hkeys'
    rw [List.length_map, ← List.length_map (·.formula)] at hplaced
    obtain ⟨inputs, items, hread, hitems, hstable⟩ :=
      (KeySource.sortRows_project_iff hplaced).mp ⟨fulls, hfulls, rfl⟩
    rw [hdirections, List.length_map] at hstable
    refine ⟨items.map (·.2), _, ⟨source, hground, columns, hmade, items.map (·.2), ?_, rfl, rfl⟩,
      ⟨source, columns, inputs, sources, items, ⟨hground, hmade, hread, hrefers, hitems, hstable⟩,
        rfl⟩, rfl⟩
    refine Rows.collect_project_eq_ok.mpr ⟨inputs, hread, List.forall₂_map_right_iff.mpr ?_⟩
    exact hitems.imp fun _ _ hitem => hitem.1
  · rintro ⟨_, sorted, ⟨source, hground, columns, hmade, plain, hplain, rfl, rfl⟩,
      ⟨_, _, inputs, sources, items, ⟨hground', hmade', hread, hrefers, hitems, hstable⟩, -⟩, rfl⟩
    cases hground.symm.trans hground'
    cases hmade.symm.trans hmade'
    obtain ⟨keys, hkeys, hplaced, hdirections⟩ := hrefers.orderKeys []
    rw [List.length_map, ← List.length_map (·.formula)] at hplaced
    rw [← hdirections] at hstable
    obtain ⟨fulls, hfulls, rfl⟩ :=
      (KeySource.sortRows_project_iff hplaced).mpr ⟨inputs, items, hread, hitems, hstable⟩
    refine ⟨source, hground, columns, hmade, _, hkeys, fulls, hfulls, rfl, ?_⟩
    rw [List.length_map]

/-- What ORDER BY makes of the rows of a result. DISTINCT then keeps the
first of equal rows. All rows have a value for each column. -/
structure Orders (q : Select) (context : Context) (names : List String)
    (plain rows : List Row) : Prop where
  sorted : ∃ sorted, q.Sorts context plain sorted ∧
    rows = if q.distinct then sorted.eraseDups else sorted
  width : ∀ row ∈ plain ++ rows, row.length = names.length

theorem length_of_readIn (h : q.readIn context = .ok (names, rows)) :
    ∀ row ∈ rows, row.length = names.length := by
  obtain ⟨answer, hanswer, h⟩ := Result.bind_eq_ok.mp h
  obtain ⟨read, hread, h⟩ := Result.bind_eq_ok.mp h
  cases h
  exact (answer_regular q hanswer).collect hread

theorem readIn_iff_orders (hctes : q.ctes = []) (hunions : q.unions = [])
    (hoffset : q.offset = none) (hlimit : q.limit = none)
    (hplain : ∀ key ∈ q.orderBy, key.expr.containsAggregate = false) :
    q.readIn context = .ok (names, rows) ↔
      ∃ plain, q.unordered.readIn context = .ok (names, plain) ∧
        q.Orders context names plain rows := by
  constructor
  · intro h
    obtain ⟨plain, sorted, hread, hsorts, hrows⟩ :=
      (readIn_eq_ok_iff hctes hunions hoffset hlimit hplain).mp h
    refine ⟨plain, hread, ⟨sorted, hsorts, hrows⟩, List.forall_mem_append.mpr ⟨?_, ?_⟩⟩
    · exact length_of_readIn hread
    · exact length_of_readIn h
  · rintro ⟨plain, hread, ⟨sorted, hsorts, hrows⟩, -⟩
    exact (readIn_eq_ok_iff hctes hunions hoffset hlimit hplain).mpr
      ⟨plain, sorted, hread, hsorts, hrows⟩

/-- Named queries make no difference to how rows are sorted. -/
theorem orders_ctes {ctes : List Cte} {plain : List Row} :
    Orders { q with ctes } context names plain rows ↔ q.Orders context names plain rows := by
  have hsorted {source columns inputs sources items sorted} :
      SortedBy { q with ctes } context source columns inputs sources items sorted ↔
        q.SortedBy context source columns inputs sources items sorted :=
    ⟨fun ⟨h₁, h₂, h₃, h₄, h₅, h₆⟩ => ⟨h₁, h₂, h₃, h₄, h₅, h₆⟩,
      fun ⟨h₁, h₂, h₃, h₄, h₅, h₆⟩ => ⟨h₁, h₂, h₃, h₄, h₅, h₆⟩⟩
  have hsorts {sorted} : Sorts { q with ctes } context plain sorted ↔
      q.Sorts context plain sorted := by
    simp only [Sorts, hsorted]
  constructor
  · rintro ⟨⟨sorted, h, hrows⟩, hwidth⟩
    exact ⟨⟨sorted, hsorts.mp h, hrows⟩, hwidth⟩
  · rintro ⟨⟨sorted, h, hrows⟩, hwidth⟩
    exact ⟨⟨sorted, hsorts.mpr h, hrows⟩, hwidth⟩

/-- A statement reads its named queries first. -/
theorem readAll_eq_readIn (q : Select) (version : DialectVersion) (store : Store) :
    q.readAll version store = q.ctes.foldlM (Cte.evaluate version store) [] >>= fun ctes =>
      readIn { q with ctes := [] } { store, ctes } := by
  rw [readAll_eq, evaluate, bind_assoc]
  rfl

/-- ORDER BY only permutes. A query without UNION and row limits whose
sort keys have no aggregates can be read to the end iff the same query
can be without ORDER BY and DISTINCT and its sort keys have values. Its
rows are then those of this query in the stable order of the sort keys,
and DISTINCT keeps the first of equal rows. The columns are the same. So
it is of a statement with its named queries and of a query within
another. -/
theorem orderBy_sorts {q : Select} (hunions : q.unions = []) (hoffset : q.offset = none)
    (hlimit : q.limit = none)
    (hplain : ∀ key ∈ q.orderBy, key.expr.containsAggregate = false) :
    (∀ version store names rows, q.readAll version store = .ok (names, rows) ↔
      ∃ ctes plain, q.ctes.foldlM (Cte.evaluate version store) [] = .ok ctes ∧
        q.unordered.readAll version store = .ok (names, plain) ∧
        q.Orders { store, ctes } names plain rows) ∧
    (q.ctes = [] → ∀ context names rows, q.readIn context = .ok (names, rows) ↔
      ∃ plain, q.unordered.readIn context = .ok (names, plain) ∧
        q.Orders context names plain rows) := by
  refine ⟨fun version store names rows => ?_, fun hctes context names rows =>
    readIn_iff_orders hctes hunions hoffset hlimit hplain⟩
  have hcore (context : Context) : Select.readIn { q with ctes := [] } context =
      .ok (names, rows) ↔ ∃ plain,
        Select.readIn { q.unordered with ctes := [] } context = .ok (names, plain) ∧
          q.Orders context names plain rows := by
    rw [readIn_iff_orders (q := { q with ctes := [] }) rfl hunions hoffset hlimit hplain]
    simp only [orders_ctes]
    rfl
  simp only [readAll_eq_readIn, Result.bind_eq_ok, hcore]
  constructor
  · rintro ⟨ctes, hctes, plain, hread, horders⟩
    exact ⟨ctes, plain, hctes, ⟨ctes, hctes, hread⟩, horders⟩
  · rintro ⟨ctes, plain, hctes, ⟨ctes', hctes', hread⟩, horders⟩
    cases hctes.symm.trans hctes'
    exact ⟨ctes, hctes, plain, hread, horders⟩

end Select

-- Fruit by kind, then the dearest first and those without a price last,
-- then by name.
namespace Fruit

def fruit : List Row :=
  [[.string "stone", .string "plum", .integer 2], [.string "pome", .string "quince", .null],
    [.string "stone", .string "cherry", .integer 2], [.string "pome", .string "pear", .integer 3],
    [.string "pome", .string "apple", .integer 3], [.string "stone", .string "plum", .integer 2]]

def bowl : Store where
  entries :=
    [⟨"fruit", ⟨"fruit", [⟨"kind", .string, false, false, none, false⟩,
      ⟨"name", .string, false, false, none, false⟩,
      ⟨"price", .integer, false, true, none, false⟩]⟩, fruit⟩]

/-- `SELECT DISTINCT name AS label, price FROM fruit ORDER BY kind, 2 DESC, Label` -/
def query : Select where
  ctes := []
  distinct := true
  columns := [⟨.column none "name", some "label"⟩, ⟨.column none "price", none⟩]
  source := some ⟨"fruit", none, []⟩
  joins := []
  predicate := none
  groupBy := []
  having := none
  unions := []
  orderBy := [⟨.column none "kind", .ascending⟩, ⟨.literal (.integer 2), .descending⟩,
    ⟨.column none "Label", .ascending⟩]
  offset := none
  limit := none
  queryHints := []

/-- A row of the result, with the values that it is sorted by. -/
def item (kind name price : Value) : List Value × Row :=
  ([kind, price, name], [name, price])

def items : List (List Value × Row) :=
  [item (.string "stone") (.string "plum") (.integer 2),
    item (.string "pome") (.string "quince") .null,
    item (.string "stone") (.string "cherry") (.integer 2),
    item (.string "pome") (.string "pear") (.integer 3),
    item (.string "pome") (.string "apple") (.integer 3),
    item (.string "stone") (.string "plum") (.integer 2)]

theorem items_stable : StableSort (compareTuples (query.orderBy.map (·.direction))) items
    [[.string "apple", .integer 3], [.string "pear", .integer 3], [.string "quince", .null],
      [.string "cherry", .integer 2], [.string "plum", .integer 2], [.string "plum", .integer 2]] :=
  ⟨[4, 3, 1, 2, 0, 5].filterMap fun place => items.zipIdx[place]?, by decide, by decide, rfl⟩

/-- An expression, a position and an alias in another case. -/
theorem orderBy_refers : KeySource.RefersAll (Scope.ofColumns "fruit" ["kind", "name", "price"])
    [some "label", none] query.orderBy [.formula (.column 0), .output 1, .output 0] := by
  refine .cons ?_ (.cons ?_ (.cons ?_ .nil))
  · refine .expression ?_ nofun rfl
    rintro name own ⟨⟩ hown
    simp at hown
    subst hown
    decide
  · exact .position (n := 2) (by decide) (by decide)
  · exact .named rfl (show Text.sameName "label" "Label" = true by decide) nofun

/-- The second plum is left out. -/
theorem fruit_sorted : (∀ key ∈ query.orderBy, key.expr.containsAggregate = false) ∧
    query.readAll ⟨.sqlServer, 2022⟩ bowl =
      .ok (["label", "price"],
        [[.string "apple", .integer 3], [.string "pear", .integer 3], [.string "quince", .null],
          [.string "cherry", .integer 2], [.string "plum", .integer 2]]) := by
  have hplain : ∀ key ∈ query.orderBy, key.expr.containsAggregate = false := by decide
  have hitem (kind name price : Value) :
      Formula.evalList [kind, name, price] [.column 1, .column 2] = .ok (item kind name price).2 ∧
        KeySource.GivesAll [kind, name, price] (item kind name price).2
          [.formula (.column 0), .output 1, .output 0] (item kind name price).1 :=
    ⟨rfl, .cons (.formula rfl) (.cons (.output rfl) (.cons (.output rfl) .nil))⟩
  have hsorts : query.Sorts { store := bowl } (items.map (·.2))
      [[.string "apple", .integer 3], [.string "pear", .integer 3], [.string "quince", .null],
        [.string "cherry", .integer 2], [.string "plum", .integer 2],
        [.string "plum", .integer 2]] := by
    refine ⟨_, _, fruit, _, items, ⟨rfl, rfl, rfl, orderBy_refers, ?_, items_stable⟩, rfl⟩
    exact .cons (hitem ..) (.cons (hitem ..) (.cons (hitem ..) (.cons (hitem ..)
      (.cons (hitem ..) (.cons (hitem ..) .nil)))))
  obtain ⟨hstatement, -⟩ := Select.orderBy_sorts (q := query) rfl rfl rfl hplain
  refine ⟨hplain, (hstatement _ _ _ _).mpr ⟨[], items.map (·.2), rfl, rfl, ⟨_, hsorts, rfl⟩, ?_⟩⟩
  decide

end Fruit

end DialectDb
